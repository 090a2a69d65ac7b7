import DialogueWindows.Proofs.Lexeme
import DialogueWindows.Proofs.Nesting

/-! # Written values are read back

The reader takes the compact text of a value for that value and stops behind it (`Exact.readsBack`),
so two values with one text are the same (`compact_injective`). This is about values whose numbers
are integers of 64 bits. The induction is on the value; what follows its text and the fuel are left
open, since the reader of an array goes on behind each item with less fuel. -/

namespace DialogueWindows.Json

/-- All numbers of the value are integers that fit in 64 bits. -/
inductive Exact : Json → Prop
  | null : Exact null
  | bool (b : Bool) : Exact (bool b)
  | int {n : Int} (hlow : -0x8000000000000000 ≤ n) (hhigh : n < 0x10000000000000000) :
    Exact (number (.int n))
  | string (s : String) : Exact (string s)
  | array {items : List Json} (h : ∀ j ∈ items, Exact j) : Exact (array items)
  | object {members : List (String × Json)} (h : ∀ m ∈ members, Exact m.2) : Exact (object members)

section Exact
variable {α : Type} {f : α → Json}

theorem exact_array_iff {items : List Json} : Exact (array items) ↔ ∀ j ∈ items, Exact j := by
  constructor
  · rintro (_ | _ | _ | _ | h)
    exact h
  · exact .array

theorem exact_object_iff {members : List (String × Json)} :
    Exact (object members) ↔ ∀ m ∈ members, Exact m.2 := by
  constructor
  · rintro (_ | _ | _ | _ | _ | h)
    exact h
  · exact .object

theorem exact_object_nil : Exact (object []) :=
  .object (List.forall_mem_nil _)

theorem exact_object_cons {k : String} {j : Json} {members : List (String × Json)} (hj : Exact j)
    (h : Exact (object members)) : Exact (object ((k, j) :: members)) :=
  exact_object_iff.2 (List.forall_mem_cons.2 ⟨hj, exact_object_iff.1 h⟩)

theorem exact_ofNat {n : Nat} (h : n < 0x10000000000000000) : Exact (ofNat n) :=
  .int (by omega) (by omega)

theorem exact_ofOption {o : Option α} (h : ∀ a ∈ o, Exact (f a)) : Exact (ofOption f o) := by
  cases o with
  | none => exact .null
  | some a => exact h a rfl

theorem exact_ofList {items : List α} (h : ∀ a ∈ items, Exact (f a)) : Exact (ofList f items) :=
  exact_array_iff.2 (List.forall_mem_map.2 h)

theorem exact_ofStrings (names : List String) : Exact (ofStrings names) :=
  exact_ofList fun name _ => .string name

theorem exact_ofDictionary {d : Dictionary α} (h : ∀ e ∈ d.entries, Exact (f e.2)) :
    Exact (ofDictionary f d) :=
  exact_object_iff.2 (List.forall_mem_map.2 h)

end Exact

/-! ### The text of a value -/

/-- A character that a value can start with. -/
def Starts (c : Char) : Prop :=
  isSpace c = false ∧ c ≠ ']'

theorem starts_of_isDigit {c : Char} (h : c.isDigit = true) : Starts c := by
  have hne : ∀ d : Char, d.isDigit = false → c ≠ d := by
    rintro d hd rfl
    rw [h] at hd
    cases hd
  refine ⟨?_, hne ']' rfl⟩
  rw [isSpace, decide_eq_false (hne ' ' rfl), decide_eq_false (hne '\n' rfl),
    decide_eq_false (hne '\t' rfl), decide_eq_false (hne '\r' rfl)]
  rfl

theorem skipSpace_cons {c : Char} (cs : List Char) (h : isSpace c = false) :
    skipSpace (c :: cs) = c :: cs :=
  List.dropWhile_cons_of_neg (by rw [h]; decide)

theorem exists_decimal_cons (n : Nat) :
    ∃ c cs, Nat.toDigits 10 n = c :: cs ∧ c.isDigit = true := by
  obtain ⟨c, cs, h⟩ := List.exists_cons_of_ne_nil (Nat.toDigits_ne_nil (n := n) (b := 10))
  exact ⟨c, cs, h, isDigit_of_mem_decimal (h ▸ List.mem_cons_self ..)⟩

theorem exists_render_cons {j : Json} (hj : Exact j) :
    ∃ c cs, render j = c :: cs ∧ Starts c := by
  cases hj with
  | null => exact ⟨_, _, rfl, rfl, by decide⟩
  | bool b => cases b <;> exact ⟨_, _, rfl, rfl, by decide⟩
  | string s => exact ⟨_, _, rfl, rfl, by decide⟩
  | array h => exact ⟨_, _, rfl, rfl, by decide⟩
  | object h => exact ⟨_, _, rfl, rfl, by decide⟩
  | int hlow hhigh =>
    rw [render, Number.render, renderInt]
    split
    · exact ⟨_, _, rfl, rfl, by decide⟩
    · obtain ⟨c, cs, h, hc⟩ := exists_decimal_cons (Int.natAbs _)
      exact ⟨c, cs, h, starts_of_isDigit hc⟩

/-! ### One step of the reader -/

section Steps
variable {fuel : Nat} {c : Char} {cs rest r : List Char} {v : Reading}

theorem readItems_close (fuel : Nat) (first : Bool) (r : List Char) :
    readItems (fuel + 1) first (']' :: r) = ([], some r) := by
  rw [readItems, skipSpace_cons r rfl]
  rfl

theorem readItems_first {vs : List Reading} (hc : Starts c)
    (hv : readValue fuel (c :: cs) = (v, some rest))
    (hvs : readItems fuel false rest = (vs, some r)) :
    readItems (fuel + 1) true (c :: cs) = (v :: vs, some r) := by
  rw [readItems, skipSpace_cons cs hc.1]
  split
  · rename_i h
    cases h
  · rename_i h
    exact absurd (List.cons.inj h).1 hc.2
  · rename_i h
    obtain ⟨rfl, rfl⟩ := List.cons.inj h
    rw [if_pos rfl]
    simp only [hv, hvs]

/-- Behind a comma an item is read as the first one is. -/
theorem readItems_comma (hc : Starts c) :
    readItems (fuel + 1) false (',' :: c :: cs) = readItems (fuel + 1) true (c :: cs) := by
  have hclose : ∀ rest, c :: cs ≠ ']' :: rest := fun _ h => hc.2 (List.cons.inj h).1
  rw [readItems, skipSpace_cons (c :: cs) rfl]
  split
  · rename_i h
    cases h
  · rename_i h
    cases h
  rename_i h
  obtain ⟨rfl, rfl⟩ := List.cons.inj h
  rw [if_neg Bool.false_ne_true, if_pos rfl, skipSpace_cons cs hc.1]
  split
  · rename_i h
    cases h
  · rename_i h
    exact absurd h (hclose _)
  rw [readItems, skipSpace_cons cs hc.1]
  symm
  split
  · rename_i h
    cases h
  · rename_i h
    exact absurd h (hclose _)
  · rename_i h
    obtain ⟨rfl, rfl⟩ := List.cons.inj h
    rfl

theorem readMembers_close (fuel : Nat) (first : Bool) (r : List Char) :
    readMembers (fuel + 1) first ('}' :: r) = ([], some r) := by
  rw [readMembers, skipSpace_cons r rfl]
  rfl

theorem readMembers_first {vs : List (Name × Reading)} (k : String)
    (hv : readValue fuel cs = (v, some rest))
    (hvs : readMembers fuel false rest = (vs, some r)) :
    readMembers (fuel + 1) true (renderString k ++ ':' :: cs) = ((.text k, v) :: vs, some r) := by
  rw [renderString, List.cons_append, List.append_assoc, List.singleton_append, readMembers,
    skipSpace_cons _ rfl]
  split
  · rename_i h
    cases h
  · rename_i h
    cases h
  · rename_i h
    obtain ⟨rfl, rfl⟩ := List.cons.inj h
    simp only [if_true, readString_renderString, skipSpace_cons (c := ':') cs rfl, hv, hvs]

/-- Behind a comma a member is read as the first one is. -/
theorem readMembers_comma (fuel : Nat) (cs : List Char) :
    readMembers (fuel + 1) false (',' :: '"' :: cs) = readMembers (fuel + 1) true ('"' :: cs) := by
  rw [readMembers, readMembers, skipSpace_cons _ rfl, skipSpace_cons cs rfl]
  rfl

theorem readValue_string (fuel : Nat) (s : String) (r : List Char) :
    readValue (fuel + 1) (renderString s ++ r) = (.string s, some r) := by
  rw [renderString, List.cons_append, List.append_assoc]
  exact readString_renderString s r

theorem readValue_digit (fuel : Nat) (cs : List Char) (hc : c.isDigit = true) :
    readValue (fuel + 1) (c :: cs) = readNumber false (c :: cs) := by
  -- no other kind of value starts with a digit
  have hne : ∀ d : Char, d.isDigit = false → ∀ cs', c :: cs ≠ d :: cs' := by
    intro d hd cs' h
    rw [(List.cons.inj h).1, hd] at hc
    cases hc
  rw [readValue, skipSpace_cons cs (starts_of_isDigit hc).1]
  split
  · rename_i h
    cases h
  · rename_i h
    exact absurd h (hne 'n' rfl _)
  · rename_i h
    exact absurd h (hne 't' rfl _)
  · rename_i h
    exact absurd h (hne 'f' rfl _)
  · rename_i h
    exact absurd h (hne '"' rfl _)
  · rename_i h
    exact absurd h (hne '[' rfl _)
  · rename_i h
    exact absurd h (hne '{' rfl _)
  · rename_i h
    exact absurd h (hne '-' rfl _)
  · rename_i h
    obtain ⟨rfl, rfl⟩ := List.cons.inj h
    exact if_pos hc

end Steps

/-! ### The reader undoes the printer -/

/-- Behind the text of the value the reader has read the value and goes on. -/
def ReadsBack (j : Json) : Prop :=
  ∀ (fuel : Nat) (r : List Char), Ends r → 2 * (render j).length ≤ fuel →
    readValue fuel (render j ++ r) = (.ofJson j, some r)

theorem exists_fuel {fuel n : Nat} (hn : 0 < n) (h : 2 * n ≤ fuel) :
    ∃ k, fuel = k + 1 ∧ 2 * n ≤ k + 1 :=
  ⟨fuel - 1, by omega, by omega⟩

theorem readsBack_int {n : Int} (hlow : -0x8000000000000000 ≤ n) (hhigh : n < 0x10000000000000000) :
    ReadsBack (number (.int n)) := by
  intro fuel r hr hf
  show readValue fuel (renderInt n ++ r) = (.number (.int n), some r)
  have hlen : 0 < (renderInt n).length := by
    rw [renderInt]
    split
    · exact Nat.succ_pos _
    · exact List.length_pos_of_ne_nil Nat.toDigits_ne_nil
  obtain ⟨fuel, rfl, -⟩ := exists_fuel hlen hf
  rw [renderInt]
  split
  · rename_i hneg
    have hint : integer? true n.natAbs = some (.int n) := by
      have hsome : n.natAbs ≠ 0 ∧ n.natAbs ≤ 0x8000000000000000 := by omega
      rw [integer?, if_pos rfl, if_pos hsome, Int.ofNat_natAbs_of_nonpos (by omega), Int.neg_neg]
    exact readNumber_decimal hint hr
  · rename_i hneg
    have hint : integer? false n.natAbs = some (.int n) := by
      have hsize : n.natAbs < UInt64.size := by
        have : UInt64.size = 0x10000000000000000 := rfl
        omega
      rw [integer?, if_neg (by decide), if_pos hsize, Int.natAbs_of_nonneg (by omega)]
    obtain ⟨c, cs, h, hc⟩ := exists_decimal_cons n.natAbs
    have hread := readNumber_decimal hint hr
    rw [h, List.cons_append] at hread ⊢
    rw [readValue_digit fuel _ hc, hread]

theorem render_length_pos {j : Json} (hj : Exact j) : 0 < (render j).length := by
  obtain ⟨c, cs, h, -⟩ := exists_render_cons hj
  rw [h]
  exact Nat.succ_pos _

theorem ends_renderMore (items : List Json) (r : List Char) : Ends (renderMore items ++ r) := by
  cases items <;> exact ends_cons _ (by decide)

theorem ends_renderMoreMembers (members : List (String × Json)) (r : List Char) :
    Ends (renderMoreMembers members ++ r) := by
  cases members <;> exact ends_cons _ (by decide)

theorem readItems_cons {j : Json} {rest : List Json} {fuel : Nat} {r : List Char}
    (hexact : Exact j) (hj : ReadsBack j) (hfuel : 2 * (renderItems (j :: rest)).length ≤ fuel + 1)
    (hrest : readItems fuel false (renderMore rest ++ r) = (Reading.ofItems rest, some r)) :
    readItems (fuel + 1) true (renderItems (j :: rest) ++ r) =
      (Reading.ofItems (j :: rest), some r) := by
  obtain ⟨c, cs, h, hc⟩ := exists_render_cons hexact
  have hmore : 0 < (renderMore rest).length := by
    cases rest <;> exact Nat.succ_pos _
  rw [renderItems, List.length_append] at hfuel
  have hread := hj fuel (renderMore rest ++ r) (ends_renderMore rest r) (by omega)
  rw [h, List.cons_append] at hread
  rw [renderItems, List.append_assoc, h, List.cons_append]
  exact readItems_first hc hread hrest

theorem readItems_renderMore {items : List Json} (hexact : ∀ j ∈ items, Exact j)
    (hitems : ∀ j ∈ items, ReadsBack j) {fuel : Nat} (r : List Char)
    (hfuel : 2 * (renderMore items).length ≤ fuel) :
    readItems fuel false (renderMore items ++ r) = (Reading.ofItems items, some r) := by
  induction items generalizing fuel with
  | nil =>
    obtain ⟨fuel, rfl, -⟩ := exists_fuel (Nat.succ_pos _) hfuel
    exact readItems_close fuel false r
  | cons j rest ih =>
    obtain ⟨hj, hrest⟩ := List.forall_mem_cons.1 hexact
    obtain ⟨hj', hrest'⟩ := List.forall_mem_cons.1 hitems
    obtain ⟨fuel, rfl, hfuel⟩ := exists_fuel (Nat.succ_pos _) hfuel
    rw [renderMore, List.length_cons, List.length_append] at hfuel
    have hlen := render_length_pos hj
    obtain ⟨c, cs, h, hc⟩ := exists_render_cons hj
    have hlen' : 2 * (renderItems (j :: rest)).length ≤ fuel + 1 := by
      rw [renderItems, List.length_append]
      omega
    have hfirst := readItems_cons hj hj' hlen' (ih hrest hrest' (by omega))
    rw [renderItems, h, List.cons_append, List.cons_append] at hfirst
    rw [renderMore, h, List.cons_append, List.cons_append, List.cons_append, readItems_comma hc]
    exact hfirst

theorem readItems_renderItems {items : List Json} (hexact : ∀ j ∈ items, Exact j)
    (hitems : ∀ j ∈ items, ReadsBack j) {fuel : Nat} (r : List Char)
    (hfuel : 2 * (renderItems items).length ≤ fuel) :
    readItems fuel true (renderItems items ++ r) = (Reading.ofItems items, some r) := by
  cases items with
  | nil =>
    obtain ⟨fuel, rfl, -⟩ := exists_fuel (Nat.succ_pos _) hfuel
    exact readItems_close fuel true r
  | cons j rest =>
    obtain ⟨hj, hrest⟩ := List.forall_mem_cons.1 hexact
    obtain ⟨hj', hrest'⟩ := List.forall_mem_cons.1 hitems
    have hlen := render_length_pos hj
    have hpos : 0 < (renderItems (j :: rest)).length := by
      rw [renderItems, List.length_append]
      omega
    obtain ⟨fuel, rfl, hfuel⟩ := exists_fuel hpos hfuel
    refine readItems_cons hj hj' hfuel (readItems_renderMore hrest hrest' r ?_)
    rw [renderItems, List.length_append] at hfuel
    omega

theorem readMembers_cons {k : String} {j : Json} {rest : List (String × Json)} {fuel : Nat}
    {r : List Char} (hj : ReadsBack j)
    (hfuel : 2 * (renderMembers ((k, j) :: rest)).length ≤ fuel + 1)
    (hrest : readMembers fuel false (renderMoreMembers rest ++ r) =
      (Reading.ofMembers rest, some r)) :
    readMembers (fuel + 1) true (renderMembers ((k, j) :: rest) ++ r) =
      (Reading.ofMembers ((k, j) :: rest), some r) := by
  rw [renderMembers, List.length_append, List.length_cons, List.length_append] at hfuel
  rw [renderMembers, List.append_assoc, List.cons_append, List.append_assoc]
  refine readMembers_first k (hj fuel _ (ends_renderMoreMembers rest r) ?_) hrest
  omega

theorem readMembers_renderMoreMembers {members : List (String × Json)}
    (hmembers : ∀ m ∈ members, ReadsBack m.2) {fuel : Nat} (r : List Char)
    (hfuel : 2 * (renderMoreMembers members).length ≤ fuel) :
    readMembers fuel false (renderMoreMembers members ++ r) =
      (Reading.ofMembers members, some r) := by
  induction members generalizing fuel with
  | nil =>
    obtain ⟨fuel, rfl, -⟩ := exists_fuel (Nat.succ_pos _) hfuel
    exact readMembers_close fuel false r
  | cons m rest ih =>
    obtain ⟨k, j⟩ := m
    obtain ⟨hj, hrest⟩ := List.forall_mem_cons.1 hmembers
    obtain ⟨fuel, rfl, hfuel⟩ := exists_fuel (Nat.succ_pos _) hfuel
    rw [renderMoreMembers, List.length_cons, List.length_append, List.length_cons,
      List.length_append] at hfuel
    have hlen : 2 * (renderMembers ((k, j) :: rest)).length ≤ fuel + 1 := by
      rw [renderMembers, List.length_append, List.length_cons, List.length_append]
      omega
    have hfirst := readMembers_cons hj hlen (ih hrest (by omega))
    rw [renderMembers, renderString] at hfirst
    rw [renderMoreMembers, renderString]
    exact (readMembers_comma fuel _).trans hfirst

theorem readMembers_renderMembers {members : List (String × Json)}
    (hmembers : ∀ m ∈ members, ReadsBack m.2) {fuel : Nat} (r : List Char)
    (hfuel : 2 * (renderMembers members).length ≤ fuel) :
    readMembers fuel true (renderMembers members ++ r) = (Reading.ofMembers members, some r) := by
  cases members with
  | nil =>
    obtain ⟨fuel, rfl, -⟩ := exists_fuel (Nat.succ_pos _) hfuel
    exact readMembers_close fuel true r
  | cons m rest =>
    obtain ⟨k, j⟩ := m
    obtain ⟨hj, hrest⟩ := List.forall_mem_cons.1 hmembers
    obtain ⟨fuel, rfl, hfuel⟩ := exists_fuel (Nat.succ_pos _) hfuel
    refine readMembers_cons hj hfuel (readMembers_renderMoreMembers hrest r ?_)
    rw [renderMembers, List.length_append, List.length_cons, List.length_append] at hfuel
    omega

theorem Exact.readsBack {j : Json} (hj : Exact j) : ReadsBack j := by
  induction hj with
  | int hlow hhigh => exact readsBack_int hlow hhigh
  | null =>
    intro fuel r _ hf
    obtain ⟨fuel, rfl, -⟩ := exists_fuel (by decide) hf
    rfl
  | bool b =>
    intro fuel r _ hf
    cases b <;> (obtain ⟨fuel, rfl, -⟩ := exists_fuel (by decide) hf; rfl)
  | string s =>
    intro fuel r _ hf
    obtain ⟨fuel, rfl, -⟩ := exists_fuel (Nat.succ_pos _) hf
    exact readValue_string fuel s r
  | @array items hexact ih =>
    intro fuel r _ hf
    obtain ⟨fuel, rfl, hf⟩ := exists_fuel (Nat.succ_pos _) hf
    rw [render, List.length_cons] at hf
    have hlen : 2 * (renderItems items).length ≤ fuel := by omega
    show (Reading.array (readItems fuel true (renderItems items ++ r)).1,
      (readItems fuel true (renderItems items ++ r)).2) = _
    rw [readItems_renderItems hexact ih r hlen]
    rfl
  | @object members hexact ih =>
    intro fuel r _ hf
    obtain ⟨fuel, rfl, hf⟩ := exists_fuel (Nat.succ_pos _) hf
    rw [render, List.length_cons] at hf
    have hlen : 2 * (renderMembers members).length ≤ fuel := by omega
    show (Reading.object (readMembers fuel true (renderMembers members ++ r)).1,
      (readMembers fuel true (renderMembers members ++ r)).2) = _
    rw [readMembers_renderMembers ih r hlen]
    rfl

/-- The compact text of a value holds that value and nothing else. -/
theorem readText_compact {j : Json} (hj : Exact j) : readText j.compact = ⟨.ofJson j, true⟩ := by
  have h := hj.readsBack (2 * (render j).length + 1) [] ends_nil (Nat.le_succ _)
  rw [List.append_nil] at h
  rw [readText, compact, String.toList_ofList, readChars, h]
  rfl

theorem compact_injective {a b : Json} (ha : Exact a) (hb : Exact b) (h : a.compact = b.compact) :
    a = b := by
  have hread := readText_compact ha
  rw [h, readText_compact hb] at hread
  exact (Reading.ofJson_injective (congrArg Document.root hread)).symm

end DialogueWindows.Json
