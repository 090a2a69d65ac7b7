import DialogueWindows.Text.Token
import Mathlib.Data.List.TakeWhile
import Mathlib.Data.String.Basic

/-! # The tokens of a text

The tokens of a text are its words, the parts between blanks that are not empty, given by the
characters before and up to the end of each. A text is read word by word
(`words_induction`); the induction is on what is left of it, with the part that has been read left
open. The same positions come out when the words are found as parts of the bytes of the text and the
characters before each are counted (`tokens_eq_slices`). The main statement is
`tokens_tokenizes`. -/

namespace DialogueWindows.Text

namespace Token

/-- The token has the character at a position. -/
def Covers (t : Token) (p : Nat) : Prop :=
  t.start ≤ p ∧ p < t.stop

/-- The characters of a token of `cs`. -/
def chars (cs : List Char) (t : Token) : List Char :=
  cs.extract t.start t.stop

end Token

/-- The parts between blanks that are not empty. -/
def words (cs : List Char) : List (List Char) :=
  (cs.splitOnP isBlank).filter (· ≠ [])

variable {cs w : List Char} {b : Char} {t : Token}

/-! ### Word by word -/

/-- A part of a text without blanks. -/
def Solid (w : List Char) : Prop :=
  ∀ c ∈ w, isBlank c = false

theorem words_induction {P : List Char → Prop} (nil : P [])
    (blank : ∀ b cs, isBlank b = true → P cs → P (b :: cs))
    (last : ∀ w, w ≠ [] → Solid w → P w)
    (word : ∀ w b cs, w ≠ [] → Solid w → isBlank b = true → P cs → P (w ++ b :: cs))
    (cs : List Char) : P cs := by
  -- on the length, since a whole word is taken off at once
  induction h : cs.length using Nat.strongRecOn generalizing cs with
  | ind n ih =>
    subst h
    cases cs with
    | nil => exact nil
    | cons c rest =>
      by_cases hc : isBlank c = true
      · exact blank c rest hc (ih _ (Nat.lt_succ_self _) rest rfl)
      let w := (c :: rest).takeWhile fun c => !isBlank c
      have hw : w ≠ [] := by simp [w, hc]
      have hsolid : Solid w := fun c hc => by simpa using List.mem_takeWhile_imp hc
      have hsplit : w ++ (c :: rest).dropWhile (fun c => !isBlank c) = c :: rest :=
        List.takeWhile_append_dropWhile
      cases hrest : (c :: rest).dropWhile fun c => !isBlank c with
      | nil =>
        rw [hrest, List.append_nil] at hsplit
        exact hsplit ▸ last w hw hsolid
      | cons b cs =>
        have hb : isBlank b = true := by
          have := List.head?_dropWhile_not (fun c => !isBlank c) (c :: rest)
          simpa [hrest] using this
        rw [hrest] at hsplit
        rw [← hsplit]
        refine word w b cs hw hsolid hb (ih _ ?_ cs rfl)
        rw [← hsplit, List.length_append, List.length_cons]
        omega

/-! ### Scanning -/

namespace Token
variable {p i : Nat}

theorem scan_blank (p : Nat) (cs : List Char) (hb : isBlank b = true) :
    scan p none (b :: cs) = scan (p + 1) none cs := by
  simp [scan, hb]

/-- Inside a word nothing happens but that the position moves on. -/
theorem scan_some_append (p start : Nat) (h : Solid w) (cs : List Char) :
    scan p (some start) (w ++ cs) = scan (p + w.length) (some start) cs := by
  induction w generalizing p with
  | nil => rfl
  | cons c w ih =>
    obtain ⟨hc, hw⟩ := List.forall_mem_cons.1 h
    rw [List.cons_append, scan, hc, if_neg Bool.false_ne_true, Option.getD_some, ih (p + 1) hw,
      List.length_cons, Nat.add_assoc, Nat.add_comm 1]

theorem scan_append (p : Nat) (hne : w ≠ []) (h : Solid w) (cs : List Char) :
    scan p none (w ++ cs) = scan (p + w.length) (some p) cs := by
  obtain ⟨c, w, rfl⟩ := List.exists_cons_of_ne_nil hne
  obtain ⟨hc, hw⟩ := List.forall_mem_cons.1 h
  rw [List.cons_append, scan, hc, if_neg Bool.false_ne_true, Option.getD_none,
    scan_some_append (p + 1) p hw, List.length_cons, Nat.add_assoc, Nat.add_comm 1]

theorem scan_last (p : Nat) (hne : w ≠ []) (h : Solid w) :
    scan p none w = [⟨p, p + w.length⟩] := by
  have := scan_append p hne h []
  rwa [List.append_nil] at this

theorem scan_word (p : Nat) (hne : w ≠ []) (h : Solid w) (hb : isBlank b = true)
    (cs : List Char) :
    scan p none (w ++ b :: cs) = ⟨p, p + w.length⟩ :: scan (p + w.length + 1) none cs := by
  rw [scan_append p hne h, scan, if_pos hb]
  rfl

theorem bounds_scan (p : Nat) (cs : List Char) :
    ∀ t ∈ scan p none cs, p ≤ t.start ∧ t.start < t.stop ∧ t.stop ≤ p + cs.length := by
  induction cs using words_induction generalizing p with
  | nil => exact fun t ht => by cases ht
  | blank b cs hb ih =>
    intro t ht
    rw [scan_blank p cs hb] at ht
    have := ih (p + 1) t ht
    rw [List.length_cons]
    omega
  | last w hne hw =>
    intro t ht
    have := List.length_pos_of_ne_nil hne
    rw [scan_last p hne hw, List.mem_singleton] at ht
    subst ht
    exact ⟨Nat.le_refl p, Nat.lt_add_of_pos_right this, Nat.le_refl _⟩
  | word w b cs hne hw hb ih =>
    intro t ht
    have := List.length_pos_of_ne_nil hne
    rw [List.length_append, List.length_cons]
    rw [scan_word p hne hw hb] at ht
    rcases List.mem_cons.1 ht with rfl | ht
    · dsimp only
      omega
    · have := ih _ t ht
      omega

/-- Between two tokens there is a blank at least. -/
theorem apart_scan (p : Nat) (cs : List Char) :
    (scan p none cs).Pairwise fun t u => t.stop < u.start := by
  induction cs using words_induction generalizing p with
  | nil => exact .nil
  | blank b cs hb ih => exact scan_blank p cs hb ▸ ih (p + 1)
  | last w hne hw => exact scan_last p hne hw ▸ List.pairwise_singleton _ _
  | word w b cs hne hw hb ih =>
    rw [scan_word p hne hw hb]
    exact List.pairwise_cons.2 ⟨fun u hu => (bounds_scan _ cs u hu).1, ih _⟩

theorem le_of_covers (ht : t ∈ scan p none cs) (h : t.Covers i) : p ≤ i :=
  (bounds_scan p cs t ht).1.trans h.1

theorem covers_word (p : Nat) {i : Nat} {c : Char} (h : Solid w) (hi : w[i]? = some c) :
    isBlank c = false ∧ Covers ⟨p, p + w.length⟩ (p + i) := by
  obtain ⟨hlt, rfl⟩ := List.getElem?_eq_some_iff.1 hi
  exact ⟨h _ (List.getElem_mem hlt), Nat.le_add_right p i, Nat.add_lt_add_left hlt p⟩

/-- The tokens have all characters but the blanks. -/
theorem covers_scan (p : Nat) {cs : List Char} {i : Nat} {c : Char} (h : cs[i]? = some c) :
    isBlank c = false ↔ ∃ t ∈ scan p none cs, t.Covers (p + i) := by
  induction cs using words_induction generalizing p i with
  | nil => cases h
  | blank b cs hb ih =>
    rw [scan_blank p cs hb]
    cases i with
    | zero =>
      obtain rfl := Option.some.inj h
      refine iff_of_false (by simp [hb]) fun ⟨t, ht, hcovers⟩ => ?_
      exact absurd (le_of_covers ht hcovers) (Nat.not_succ_le_self p)
    | succ i =>
      rw [ih (p + 1) h, Nat.add_assoc, Nat.add_comm 1]
  | last w hne hw =>
    obtain ⟨hc, hcovers⟩ := covers_word p hw h
    rw [scan_last p hne hw]
    exact iff_of_true hc ⟨_, List.mem_singleton_self _, hcovers⟩
  | word w b cs hne hw hb ih =>
    rw [scan_word p hne hw hb, List.exists_mem_cons_iff]
    rcases lt_trichotomy i w.length with hi | rfl | hi
    · rw [List.getElem?_append_left hi] at h
      obtain ⟨hc, hcovers⟩ := covers_word p hw h
      exact iff_of_true hc (.inl hcovers)
    · rw [List.getElem?_append_right (le_refl _), Nat.sub_self] at h
      obtain rfl := Option.some.inj h
      refine iff_of_false (by simp [hb]) ?_
      rintro (hcovers | ⟨t, ht, hcovers⟩)
      · exact Nat.lt_irrefl _ hcovers.2
      · exact absurd (le_of_covers ht hcovers) (Nat.not_succ_le_self _)
    · obtain ⟨j, rfl⟩ := Nat.exists_eq_add_of_lt hi
      have hfirst : ¬ Covers ⟨p, p + w.length⟩ (p + (w.length + j + 1)) := fun hcovers => by
        have := hcovers.2
        dsimp only at this
        omega
      have hj : cs[j]? = some c := by
        rw [List.getElem?_append_right (by omega)] at h
        rwa [show w.length + j + 1 - w.length = j + 1 by omega, List.getElem?_cons_succ] at h
      have hposition : p + (w.length + j + 1) = p + w.length + 1 + j := by omega
      rw [or_iff_right hfirst, hposition]
      exact ih _ hj

end Token

/-! ### Words -/

theorem words_blank (cs : List Char) (hb : isBlank b = true) : words (b :: cs) = words cs := by
  rw [words, List.splitOnP_cons_eq_if_modifyHead, if_pos hb]
  simp [words]

theorem words_last (hne : w ≠ []) (h : Solid w) : words w = [w] := by
  rw [words, List.splitOnP_eq_singleton h]
  simp [hne]

theorem words_word (hne : w ≠ []) (h : Solid w) (hb : isBlank b = true) (cs : List Char) :
    words (w ++ b :: cs) = w :: words cs := by
  rw [words, List.splitOnP_append_cons_of_forall_mem h b hb]
  simp [words, hne]

/-- The characters of the tokens are the words. -/
theorem map_chars_scan (before cs : List Char) :
    (Token.scan before.length none cs).map (Token.chars (before ++ cs)) = words cs := by
  induction cs using words_induction generalizing before with
  | nil => rfl
  | blank b cs hb ih =>
    rw [Token.scan_blank _ cs hb, words_blank cs hb, ← ih (before ++ [b])]
    simp
  | last w hne hw =>
    rw [Token.scan_last _ hne hw, words_last hne hw]
    simp [Token.chars, List.extract]
  | word w b cs hne hw hb ih =>
    rw [Token.scan_word _ hne hw hb, words_word hne hw hb, ← ih (before ++ (w ++ [b]))]
    simp [Token.chars, List.extract, Nat.add_assoc]

/-- Only blanks stand between the words. -/
theorem flatten_words (cs : List Char) : (words cs).flatten = cs.filter fun c => !isBlank c := by
  have hsolid (w : List Char) (h : Solid w) : w.filter (fun c => !isBlank c) = w :=
    List.filter_eq_self.2 fun c hc => by simp [h c hc]
  induction cs using words_induction with
  | nil => rfl
  | blank b cs hb ih => rw [words_blank cs hb, ih, List.filter_cons_of_neg (by simp [hb])]
  | last w hne hw => rw [words_last hne hw, hsolid w hw, List.flatten_singleton]
  | word w b cs hne hw hb ih =>
    rw [words_word hne hw hb, List.flatten_cons, ih, List.filter_append, hsolid w hw,
      List.filter_cons_of_neg (by simp [hb])]

/-! ### Parts of the bytes -/

/-- A part of a text: the number of bytes before it, and its characters. -/
structure Slice where
  offset : Nat
  chars : List Char

namespace Slice

/-- The parts of `cs` between its blanks, empty ones too; before `cs` stand `offset` bytes. -/
def split (offset : Nat) : List Char → List Slice
  | [] => [⟨offset, []⟩]
  | c :: cs =>
    if isBlank c then ⟨offset, []⟩ :: split (offset + c.utf8Size) cs
    else (split (offset + c.utf8Size) cs).modifyHead fun s => ⟨offset, c :: s.chars⟩

/-- The token of a part: the characters in the bytes before it are counted. -/
def token (text : String) (s : Slice) : Token :=
  let start := (String.Pos.Raw.extract text 0 ⟨s.offset⟩).length
  ⟨start, start + s.chars.length⟩

theorem split_last (offset : Nat) (h : Solid w) : split offset w = [⟨offset, w⟩] := by
  induction w generalizing offset with
  | nil => rfl
  | cons c w ih =>
    obtain ⟨hc, hw⟩ := List.forall_mem_cons.1 h
    rw [split, hc, if_neg Bool.false_ne_true, ih _ hw]
    rfl

theorem split_word (offset : Nat) (h : Solid w) (hb : isBlank b = true) (cs : List Char) :
    split offset (w ++ b :: cs) =
      ⟨offset, w⟩ :: split (offset + String.utf8Len w + b.utf8Size) cs := by
  induction w generalizing offset with
  | nil => rw [List.nil_append, split, if_pos hb]; rfl
  | cons c w ih =>
    obtain ⟨hc, hw⟩ := List.forall_mem_cons.1 h
    rw [List.cons_append, split, hc, if_neg Bool.false_ne_true, ih _ hw, String.utf8Len_cons,
      Nat.add_comm (String.utf8Len w), ← Nat.add_assoc]
    rfl

/-- The characters of the parts do not depend on where the bytes are counted from. -/
theorem map_chars_split (offset : Nat) (cs : List Char) :
    (split offset cs).map (·.chars) = cs.splitOnP isBlank := by
  induction cs generalizing offset with
  | nil => rfl
  | cons c cs ih =>
    rw [split, List.splitOnP_cons_eq_if_modifyHead, ← ih (offset + c.utf8Size)]
    split
    · rfl
    · cases split (offset + c.utf8Size) cs <;> rfl

/-- The bytes of some characters hold as many characters. -/
theorem token_append (before cs w : List Char) :
    token (String.ofList (before ++ cs)) ⟨String.utf8Len before, w⟩ =
      ⟨before.length, before.length + w.length⟩ := by
  have h := String.extract_of_valid [] before cs
  rw [List.nil_append, String.utf8Len_nil, Nat.zero_add] at h
  have hlength : (String.Pos.Raw.extract (String.ofList (before ++ cs)) 0
      ⟨String.utf8Len before⟩).length = before.length :=
    (congrArg String.length h).trans String.length_ofList
  simp only [token, hlength]

end Slice

/-- The words of a text as parts of its bytes. -/
def slices (text : String) : List Slice :=
  (Slice.split 0 text.toList).filter (·.chars ≠ [])

theorem map_chars_slices (text : String) : (slices text).map (·.chars) = words text.toList := by
  rw [words, ← Slice.map_chars_split 0, List.filter_map]
  rfl

theorem map_token_split (before cs : List Char) :
    ((Slice.split (String.utf8Len before) cs).filter (·.chars ≠ [])).map
      (Slice.token (String.ofList (before ++ cs))) = Token.scan before.length none cs := by
  induction cs using words_induction generalizing before with
  | nil => rfl
  | blank b cs hb ih =>
    have hbytes : String.utf8Len (before ++ [b]) = String.utf8Len before + b.utf8Size := by simp
    have hrest := ih (before ++ [b])
    rw [hbytes, List.append_assoc, List.length_append] at hrest
    rw [Slice.split, if_pos hb, List.filter_cons_of_neg (by simp), Token.scan_blank _ cs hb]
    exact hrest
  | last w hne hw =>
    rw [Slice.split_last _ hw, Token.scan_last _ hne hw, List.filter_cons_of_pos (by simp [hne]),
      List.filter_nil, List.map_singleton, Slice.token_append]
  | word w b cs hne hw hb ih =>
    have hbytes : String.utf8Len (before ++ (w ++ [b])) =
        String.utf8Len before + String.utf8Len w + b.utf8Size := by simp [Nat.add_assoc]
    have hlength : (before ++ (w ++ [b])).length = before.length + w.length + 1 := by
      simp [Nat.add_assoc]
    have hrest := ih (before ++ (w ++ [b]))
    rw [hbytes, hlength, List.append_assoc, List.append_assoc] at hrest
    rw [Slice.split_word _ hw hb, Token.scan_word _ hne hw hb,
      List.filter_cons_of_pos (by simp [hne]), List.map_cons, Slice.token_append]
    exact congrArg _ hrest

/-- The tokens are those of the words as parts of the bytes. -/
theorem tokens_eq_slices (text : String) :
    tokens text = (slices text).map (Slice.token text) := by
  have h := map_token_split [] text.toList
  rw [List.nil_append, String.ofList_toList] at h
  exact h.symm

/-! ### Tokens -/

/-- The tokens are the maximal runs of characters that are no blanks. -/
structure Tokenizes (text : String) (ts : List Token) : Prop where
  proper : ∀ t ∈ ts, t.start < t.stop ∧ t.stop ≤ text.length
  /-- They come in order, and no two of them touch. -/
  apart : ts.Pairwise fun t u => t.stop < u.start
  covers : ∀ p c, text.toList[p]? = some c → (isBlank c = false ↔ ∃ t ∈ ts, t.Covers p)
  chars : ts.map (Token.chars text.toList) = words text.toList
  joined : (ts.map (Token.chars text.toList)).flatten = text.toList.filter fun c => !isBlank c
  /-- The same words found in the bytes of the text have these places in its characters. -/
  slices : ts = (slices text).map (Slice.token text) ∧
    (slices text).map (·.chars) = words text.toList

/-- Of every text, whatever its characters and blanks take up in bytes. -/
theorem tokens_tokenizes (text : String) : Tokenizes text (tokens text) := by
  have hchars : (tokens text).map (Token.chars text.toList) = words text.toList :=
    map_chars_scan [] text.toList
  refine ⟨fun t ht => ?_, Token.apart_scan 0 text.toList, fun p c h => ?_, hchars, ?_,
    tokens_eq_slices text, map_chars_slices text⟩
  · obtain ⟨-, hlt, hle⟩ := Token.bounds_scan 0 text.toList t ht
    rw [Nat.zero_add, String.length_toList] at hle
    exact ⟨hlt, hle⟩
  · have := Token.covers_scan 0 h
    rwa [Nat.zero_add] at this
  · rw [hchars, flatten_words]

example : tokens "zürich　now " = [⟨0, 6⟩, ⟨7, 10⟩] := by decide

end DialogueWindows.Text
