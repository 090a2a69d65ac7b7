import DialogueWindows.Config.Environment
import Mathlib.Data.List.Forall2
import Mathlib.Data.List.Induction
import Mathlib.Data.List.TakeWhile

/-! # Spellings

What the value of a variable can look like. A number is spelled by its decimal digits, with zeros
and a plus sign before them or without, a truth value by its word; blanks around either do not count
(`Text.trim_pad`). That the history has no bound is spelled by the word `none` in letters of any
case, with nothing around it. Nothing else can be read (`Environment.bool?_eq_some_iff`,
`Environment.bound?_eq_some_iff`). -/

namespace DialogueWindows

namespace Text

/-! ### Blanks around a text -/

section Blanks
variable {a b cs : List Char} {raw core : String}

/-- The text is `core` with blanks around it. -/
def Pads (raw core : String) : Prop :=
  ∃ a b, isVoid a ∧ isVoid b ∧ raw = a ++ core ++ b

theorem trimChars_append_right (hb : ∀ c ∈ b, isBlank c) : trimChars (cs ++ b) = trimChars cs := by
  unfold trimChars
  rw [List.dropWhile_append]
  split
  · -- nothing but blanks
    rename_i h
    rw [List.isEmpty_iff.1 h, List.dropWhile_eq_nil_iff.2 hb]
  · rw [List.reverse_append, List.dropWhile_append_of_pos (by simpa using hb)]

theorem trimChars_pad (ha : ∀ c ∈ a, isBlank c) (hb : ∀ c ∈ b, isBlank c) :
    trimChars (a ++ cs ++ b) = trimChars cs := by
  rw [trimChars_append_right hb]
  unfold trimChars
  rw [List.dropWhile_append_of_pos ha]

theorem trimChars_of_forall (h : ∀ c ∈ cs, ¬ isBlank c) : trimChars cs = cs := by
  have hdrop : ∀ {xs : List Char}, (∀ c ∈ xs, ¬ isBlank c) → xs.dropWhile isBlank = xs := by
    intro xs hxs
    cases xs with
    | nil => rfl
    | cons x rest => exact List.dropWhile_cons_of_neg (hxs x (List.mem_cons_self ..))
  rw [trimChars, hdrop h, hdrop (by simpa using h), List.reverse_reverse]

theorem exists_pad (cs : List Char) :
    ∃ a b, (∀ c ∈ a, isBlank c) ∧ (∀ c ∈ b, isBlank c) ∧ cs = a ++ trimChars cs ++ b := by
  have hfront := List.takeWhile_append_dropWhile (p := isBlank) (l := cs)
  have hback := congrArg List.reverse
    (List.takeWhile_append_dropWhile (p := isBlank) (l := (cs.dropWhile isBlank).reverse))
  rw [List.reverse_append, List.reverse_reverse] at hback
  refine ⟨cs.takeWhile isBlank, ((cs.dropWhile isBlank).reverse.takeWhile isBlank).reverse,
    fun c hc => List.mem_takeWhile_imp hc,
    fun c hc => List.mem_takeWhile_imp (List.mem_reverse.1 hc), ?_⟩
  rw [trimChars, List.append_assoc, hback, hfront]

theorem trim_pad {a b : String} (ha : isVoid a) (hb : isVoid b) (s : String) :
    trim (a ++ s ++ b) = trim s := by
  rw [trim, String.toList_append, String.toList_append,
    trimChars_pad (List.all_eq_true.1 ha) (List.all_eq_true.1 hb), trim]

theorem trim_eq_iff (hcore : ∀ c ∈ core.toList, ¬ isBlank c) : trim raw = core ↔ Pads raw core := by
  constructor
  · rintro rfl
    obtain ⟨a, b, ha, hb, h⟩ := exists_pad raw.toList
    refine ⟨String.ofList a, String.ofList b, ?_, ?_, String.toList_injective ?_⟩
    · simpa [isVoid] using ha
    · simpa [isVoid] using hb
    · simpa [trim] using h
  · rintro ⟨a, b, ha, hb, rfl⟩
    rw [trim_pad ha hb, trim, trimChars_of_forall hcore, String.ofList_toList]

theorem not_isBlank_of_isDigit {c : Char} (h : c.isDigit = true) : ¬ isBlank c := by
  have hzero : '0'.toNat = 48 := rfl
  have hnine : '9'.toNat = 57 := rfl
  obtain ⟨hle, hge⟩ := Char.isDigit_iff_toNat.1 h
  simp only [isBlank, blankRanges, List.any_cons, List.any_nil, Bool.or_eq_true, Bool.and_eq_true,
    decide_eq_true_eq, Bool.false_eq_true, or_false]
  omega

end Blanks

/-! ### Letters of any case -/

section Letters
variable {c l : Char} {text word : String}

/-- The text is the word, each letter of it in lower or in upper case. -/
def InAnyCase (text word : String) : Prop :=
  List.Forall₂ (fun c l => c = l ∨ c = l.toUpper) text.toList word.toList

theorem toNat_toLower (c : Char) :
    c.toLower.toNat = if 65 ≤ c.toNat ∧ c.toNat ≤ 90 then c.toNat + 32 else c.toNat := by
  have hupper : c.val ≥ 'A'.val ∧ c.val ≤ 'Z'.val ↔ 65 ≤ c.toNat ∧ c.toNat ≤ 90 := Iff.rfl
  unfold Char.toLower
  by_cases h : c.val ≥ 'A'.val ∧ c.val ≤ 'Z'.val
  · have hadd := UInt32.toNat_add c.val ('a'.val - 'A'.val)
    have hdistance : ('a'.val - 'A'.val).toNat = 32 := by decide
    have hle := hupper.1 h
    rw [dif_pos h, if_pos hle]
    show (c.val + ('a'.val - 'A'.val)).toNat = _
    rw [hadd, hdistance, Char.toNat_val]
    omega
  · rw [dif_neg h, if_neg (mt hupper.2 h)]

theorem toNat_toUpper (c : Char) :
    c.toUpper.toNat = if 97 ≤ c.toNat ∧ c.toNat ≤ 122 then c.toNat - 32 else c.toNat := by
  have hlower : 'a'.val ≤ c.val ∧ c.val ≤ 'z'.val ↔ 97 ≤ c.toNat ∧ c.toNat ≤ 122 := Iff.rfl
  unfold Char.toUpper
  by_cases h : 'a'.val ≤ c.val ∧ c.val ≤ 'z'.val
  · have hadd := UInt32.toNat_add c.val ('A'.val - 'a'.val)
    have hdistance : ('A'.val - 'a'.val).toNat = 2 ^ 32 - 32 := by decide
    have hle := hlower.1 h
    rw [dif_pos h, if_pos hle]
    show (c.val + ('A'.val - 'a'.val)).toNat = _
    rw [hadd, hdistance, Char.toNat_val]
    omega
  · rw [dif_neg h, if_neg (mt hlower.2 h)]

theorem toLower_eq_iff (hl : l.isLower) : c.toLower = l ↔ c = l ∨ c = l.toUpper := by
  have hl : 97 ≤ l.toNat ∧ l.toNat ≤ 122 :=
    (Bool.and_eq_true_iff.1 hl).imp of_decide_eq_true of_decide_eq_true
  rw [← Char.toNat_inj, ← Char.toNat_inj, ← Char.toNat_inj, toNat_toLower, toNat_toUpper,
    if_pos hl]
  split <;> omega

theorem map_toLower_eq_iff (hword : word.toList.all Char.isLower) :
    String.map Char.toLower text = word ↔ InAnyCase text word := by
  rw [← String.toList_inj, String.toList_map, InAnyCase]
  generalize word.toList = ls at hword ⊢
  induction text.toList generalizing ls with
  | nil => cases ls <;> simp
  | cons c cs ih =>
    cases ls with
    | nil => simp
    | cons l ls =>
      rw [List.all_cons, Bool.and_eq_true] at hword
      obtain ⟨hl, hls⟩ := hword
      rw [List.map_cons, List.cons.injEq, List.forall₂_cons, toLower_eq_iff hl, ih ls hls]

end Letters

end Text

namespace Environment
variable {cs digits : List Char} {c : Char} {raw text : String} {n : Nat}

/-! ### Digits -/

theorem digit?_eq_some_iff : digit? c = some n ↔ n < 10 ∧ c = n.digitChar := by
  have hzero : '0'.toNat = 48 := rfl
  have hnine : '9'.toNat = 57 := rfl
  rw [digit?, hzero]
  constructor
  · intro h
    split at h
    · rename_i hc
      obtain ⟨hle, hge⟩ := Char.isDigit_iff_toNat.1 hc
      have hn := Option.some.inj h
      have hlt : n < 10 := by omega
      refine ⟨hlt, Char.toNat_inj.1 ?_⟩
      rw [Nat.toNat_digitChar_of_lt_ten hlt]
      omega
    · cases h
  · rintro ⟨hlt, rfl⟩
    rw [if_pos (by rw [Nat.isDigit_digitChar]; exact decide_eq_true hlt),
      Nat.toNat_digitChar_of_lt_ten hlt, Nat.add_sub_cancel_left]

theorem digits?_concat : digits? (cs ++ [c]) = some n ↔
    digit? c = some (n % 10) ∧ (cs = [] ∧ n / 10 = 0 ∨ digits? cs = some (n / 10)) := by
  have hread : ∀ o : Option Nat, (do return (← o) * 10 + (← digit? c)) = some n ↔
      digit? c = some (n % 10) ∧ o = some (n / 10) := by
    intro o
    cases o with
    | none => simp
    | some m =>
      cases hd : digit? c with
      | none => simp
      | some d =>
        have hlt := (digit?_eq_some_iff.1 hd).1
        have hlast : m * 10 + d = n ↔ m = n / 10 ∧ d = n % 10 := by omega
        simpa [and_comm] using hlast
  cases cs with
  | nil =>
    refine (hread (some 0)).trans (and_congr_right fun _ => ?_)
    simp [digits?, eq_comm]
  | cons d ds =>
    show List.foldl _ (some 0) (d :: ds ++ [c]) = some n ↔ _
    rw [List.foldl_append, List.foldl_cons, List.foldl_nil, hread]
    simp [digits?]

/-- Zeros, then a number in decimal. -/
theorem digits?_eq_some_iff :
    digits? cs = some n ↔ ∃ k, cs = List.replicate k '0' ++ Nat.toDigits 10 n := by
  induction cs using List.reverseRecOn generalizing n with
  | nil =>
    have hne : ∀ k, [] ≠ List.replicate k '0' ++ Nat.toDigits 10 n := fun k h =>
      Nat.toDigits_ne_nil (List.append_eq_nil_iff.1 h.symm).2
    simp [digits?, hne]
  | append_singleton cs c ih =>
    rw [digits?_concat, ih, digit?_eq_some_iff]
    rcases Nat.lt_or_ge n 10 with hlt | hge
    · -- the only digit of the number; all others are zeros
      have hzeros : (cs = [] ∧ n / 10 = 0 ∨
          ∃ k, cs = List.replicate k '0' ++ Nat.toDigits 10 (n / 10)) ↔
          ∃ k, cs = List.replicate k '0' := by
        rw [Nat.div_eq_of_lt hlt, Nat.toDigits_zero]
        constructor
        · rintro (⟨rfl, -⟩ | ⟨k, rfl⟩)
          · exact ⟨0, rfl⟩
          · exact ⟨k + 1, List.replicate_succ'.symm⟩
        · rintro ⟨k, rfl⟩
          cases k with
          | zero => exact .inl ⟨rfl, rfl⟩
          | succ k => exact .inr ⟨k, List.replicate_succ'⟩
      simp only [hzeros, Nat.mod_eq_of_lt hlt, hlt, true_and, Nat.toDigits_of_lt_base hlt,
        List.append_singleton_inj, exists_and_right]
      exact and_comm
    · have hpos : n / 10 ≠ 0 := by omega
      simp only [hpos, and_false, false_or, Nat.mod_lt n (by decide : 0 < 10), true_and,
        Nat.toDigits_of_base_le (by decide) hge, ← List.append_assoc, List.append_singleton_inj,
        exists_and_right]
      exact and_comm

/-! ### Settings -/

/-- The decimal digits of a number, with zeros and a plus sign before them or without. -/
inductive Numeral (n : Nat) : String → Prop
  | plain (k : Nat) : Numeral n (String.ofList (List.replicate k '0' ++ Nat.toDigits 10 n))
  | signed (k : Nat) :
    Numeral n (String.ofList ('+' :: (List.replicate k '0' ++ Nat.toDigits 10 n)))

def truthWord : Bool → String
  | true => "true"
  | false => "false"

/-- What a text says of the bound on the history. -/
inductive SpellsBound (raw : String) : Option Nat → Prop
  | unbounded (h : Text.InAnyCase raw "none") : SpellsBound raw none
  | bounded {n : Nat} {text : String} (hn : n < UInt64.size) (h : Numeral n text)
    (hpad : Text.Pads raw text) : SpellsBound raw (some n)

theorem isDigit_of_mem_digits {k : Nat} (hc : c ∈ List.replicate k '0' ++ Nat.toDigits 10 n) :
    c.isDigit = true := by
  rcases List.mem_append.1 hc with hc | hc
  · rw [List.eq_of_mem_replicate hc]
    rfl
  · exact Nat.isDigit_of_mem_toDigits (by decide) (by decide) hc

theorem numeral_iff : Numeral n text ↔ ∃ k,
    text.toList = List.replicate k '0' ++ Nat.toDigits 10 n ∨
      text.toList = '+' :: (List.replicate k '0' ++ Nat.toDigits 10 n) := by
  constructor
  · rintro (k | k)
    · exact ⟨k, .inl String.toList_ofList⟩
    · exact ⟨k, .inr String.toList_ofList⟩
  · rintro ⟨k, h | h⟩
    · rw [← String.ofList_toList (s := text), h]
      exact .plain k
    · rw [← String.ofList_toList (s := text), h]
      exact .signed k

theorem Numeral.not_isBlank (h : Numeral n text) : ∀ c ∈ text.toList, ¬ Text.isBlank c := by
  intro c hc
  obtain ⟨k, hplain | hsigned⟩ := numeral_iff.1 h
  · exact Text.not_isBlank_of_isDigit (isDigit_of_mem_digits (hplain ▸ hc))
  · rcases List.mem_cons.1 (hsigned ▸ hc) with rfl | hc
    · decide
    · exact Text.not_isBlank_of_isDigit (isDigit_of_mem_digits hc)

theorem Numeral.exists_isDigit (h : Numeral n text) : ∃ c ∈ text.toList, c.isDigit = true := by
  obtain ⟨c, hc⟩ := List.exists_mem_of_ne_nil _ (Nat.toDigits_ne_nil (b := 10) (n := n))
  refine ⟨c, ?_, Nat.isDigit_of_mem_toDigits (by decide) (by decide) hc⟩
  obtain ⟨k, hplain | hsigned⟩ := numeral_iff.1 h
  · rw [hplain]
    exact List.mem_append_right _ hc
  · rw [hsigned]
    exact List.mem_cons_of_mem _ (List.mem_append_right _ hc)

theorem unsigned_iff (hdigits : ∀ c ∈ digits, c.isDigit = true) :
    (match cs with | '+' :: cs => cs | cs => cs) = digits ↔ cs = digits ∨ cs = '+' :: digits := by
  constructor
  · rintro rfl
    split
    · exact .inr rfl
    · exact .inl rfl
  · rintro (rfl | rfl)
    · split
      · cases hdigits '+' (List.mem_cons_self ..)
      · rfl
    · rfl

theorem natural?_eq_some_iff :
    natural? raw = some n ↔ n < UInt64.size ∧ Numeral n (Text.trim raw) := by
  rw [natural?, numeral_iff]
  generalize (Text.trim raw).toList = cs
  rw [Option.filter_eq_some_iff, digits?_eq_some_iff, decide_eq_true_iff, and_comm]
  exact and_congr_right fun _ => exists_congr fun k => unsigned_iff fun c => isDigit_of_mem_digits

theorem bool?_eq_some_iff {b : Bool} : bool? raw = some b ↔ Text.Pads raw (truthWord b) := by
  have hword : ∀ b, (truthWord b).toList.all (!Text.isBlank ·) := by decide
  have hletters : ∀ c ∈ (truthWord b).toList, ¬ Text.isBlank c := by
    simpa using List.all_eq_true.1 (hword b)
  rw [← Text.trim_eq_iff hletters, bool?]
  generalize Text.trim raw = text
  constructor
  · intro h
    split at h <;> cases h <;> rfl
  · rintro rfl
    cases b <;> rfl

theorem inAnyCase_none_iff :
    Text.InAnyCase raw "none" ↔ String.map Char.toLower raw = "none" :=
  (Text.map_toLower_eq_iff (by decide)).symm

theorem letter_of_inAnyCase (h : Text.InAnyCase raw "none") :
    ∀ c ∈ raw.toList, ¬ Text.isBlank c ∧ ¬ c.isDigit := by
  have hletters : "none".toList.all fun l => l.isLower &&
      [l, l.toUpper].all fun c => !Text.isBlank c && !c.isDigit := by decide
  intro c hc
  have hl : c.toLower ∈ "none".toList := by
    rw [← inAnyCase_none_iff.1 h, String.toList_map]
    exact List.mem_map_of_mem hc
  obtain ⟨hlower, hcases⟩ := Bool.and_eq_true_iff.1 (List.all_eq_true.1 hletters _ hl)
  have hmem : c ∈ [c.toLower, c.toLower.toUpper] := by
    simpa using (Text.toLower_eq_iff hlower).1 rfl
  simpa using List.all_eq_true.1 hcases c hmem

theorem natural?_of_inAnyCase (h : Text.InAnyCase raw "none") : natural? raw = none := by
  have hletters := letter_of_inAnyCase h
  have htrim : Text.trim raw = raw := by
    rw [Text.trim, Text.trimChars_of_forall fun c hc => (hletters c hc).1, String.ofList_toList]
  rw [Option.eq_none_iff_forall_ne_some]
  intro n hn
  obtain ⟨c, hc, hdigit⟩ := (natural?_eq_some_iff.1 hn).2.exists_isDigit
  exact (hletters c (htrim ▸ hc)).2 hdigit

theorem bound?_eq_some_iff {bound : Option Nat} :
    bound? raw = some bound ↔ SpellsBound raw bound := by
  unfold bound?
  constructor
  · intro h
    split at h
    · rename_i hnone
      cases h
      exact .unbounded (inAnyCase_none_iff.2 hnone)
    · obtain ⟨n, hn, rfl⟩ := Option.map_eq_some_iff.1 h
      obtain ⟨hlt, hnumeral⟩ := natural?_eq_some_iff.1 hn
      exact .bounded hlt hnumeral ((Text.trim_eq_iff hnumeral.not_isBlank).1 rfl)
  · rintro (hnone | ⟨hlt, hnumeral, hpad⟩)
    · rw [if_pos (inAnyCase_none_iff.1 hnone)]
    · have htrim := (Text.trim_eq_iff hnumeral.not_isBlank).2 hpad
      have hn := natural?_eq_some_iff.2 ⟨hlt, htrim ▸ hnumeral⟩
      have hnone : ¬ String.map Char.toLower raw = "none" := fun hnone => by
        cases hn.symm.trans (natural?_of_inAnyCase (inAnyCase_none_iff.2 hnone))
      rw [if_neg hnone, hn, Option.map_some]

end Environment

end DialogueWindows
