import DialogueWindows.Json.Printer
import DialogueWindows.Json.Reader
import Mathlib.Data.List.Basic

/-! # Written strings and integers are read back

The reader of strings takes the escape of a character for that character and goes on behind it
(`readString_escapeChar`), so it takes the escape of a text for the text. The reader of numbers
takes the decimal digits of an integer for the integer, unless what follows prolongs them. -/

namespace DialogueWindows.Json

/-! ### Strings -/

namespace Scan

/-- A string of which only plain characters have been read, the last one first. -/
def plain (chars : List Char) : Scan :=
  ⟨chars, true, none, .plain⟩

end Scan

section Strings
variable {chars : List Char} {c d : Char}

theorem readString_quote (chars cs : List Char) :
    readString (.plain chars) ('"' :: cs) = (.string (String.ofList chars.reverse), some cs) :=
  rfl

theorem readString_plain (chars cs : List Char) (hq : c ≠ '"') (hb : c ≠ '\\')
    (hc : 0x20 ≤ c.toNat) :
    readString (.plain chars) (c :: cs) = readString (.plain (c :: chars)) cs := by
  rw [readString]
  show (if c = '"' then _ else _) = _
  rw [if_neg hq, if_neg hb, if_neg (Nat.not_lt.2 hc)]
  rfl

theorem readString_unescape (chars cs : List Char) (hu : c ≠ 'u') (hd : unescape? c = some d) :
    readString (.plain chars) ('\\' :: c :: cs) = readString (.plain (d :: chars)) cs := by
  rw [readString]
  show readString { Scan.plain chars with mode := .escape } (c :: cs) = _
  rw [readString]
  show (if c = 'u' then _ else _) = _
  rw [if_neg hu, hd]
  rfl

theorem hexValue?_hexDigit {n : Nat} (h : n < 16) : hexValue? (hexDigit n) = some n := by
  have hall : ∀ n < 16, hexValue? (hexDigit n) = some n := by decide
  exact hall n h

theorem readString_hexDigit {digits n : Nat} (chars : List Char) (value : Nat) (cs : List Char)
    (hd : digits ≠ 3) (hn : n < 16) :
    readString { Scan.plain chars with mode := .hex digits value } (hexDigit n :: cs) =
      readString { Scan.plain chars with mode := .hex (digits + 1) (value * 16 + n) } cs := by
  rw [readString]
  simp only [hexValue?_hexDigit hn]
  rw [if_neg hd]

theorem readString_lastHexDigit {n : Nat} (chars : List Char) (value : Nat) (cs : List Char)
    (hn : n < 16) (hunit : value * 16 + n < 0x20) :
    readString { Scan.plain chars with mode := .hex 3 value } (hexDigit n :: cs) =
      readString (.plain (Char.ofNat (value * 16 + n) :: chars)) cs := by
  have hhigh : Scan.isHigh (value * 16 + n) = false := by
    rw [Scan.isHigh, Bool.and_eq_false_iff]
    exact .inl (decide_eq_false (by omega))
  have hlow : Scan.isLow (value * 16 + n) = false := by
    rw [Scan.isLow, Bool.and_eq_false_iff]
    exact .inl (decide_eq_false (by omega))
  rw [readString]
  simp only [hexValue?_hexDigit hn]
  rw [if_pos trivial, Scan.pushUnit]
  simp only [Scan.plain, hhigh, hlow]
  rfl

theorem readString_hex (chars cs : List Char) (hc : c.toNat < 0x20) :
    readString (.plain chars) ('\\' :: 'u' :: '0' :: '0' :: hexDigit (c.toNat / 16) ::
        hexDigit (c.toNat % 16) :: cs) = readString (.plain (c :: chars)) cs := by
  have hunit : ((0 * 16 + 0) * 16 + c.toNat / 16) * 16 + c.toNat % 16 = c.toNat := by omega
  have hzero : '0' = hexDigit 0 := rfl
  rw [readString]
  show readString { Scan.plain chars with mode := .escape } _ = _
  rw [readString]
  show readString { Scan.plain chars with mode := .hex 0 0 } _ = _
  rw [hzero, readString_hexDigit _ _ _ (by decide) (by decide),
    readString_hexDigit _ _ _ (by decide) (by decide),
    readString_hexDigit _ _ _ (by decide) (by omega),
    readString_lastHexDigit _ _ _ (by omega) (by omega), hunit, Char.ofNat_toNat]

theorem readString_escapeChar (chars : List Char) (c : Char) (cs : List Char) :
    readString (.plain chars) (escapeChar c ++ cs) = readString (.plain (c :: chars)) cs := by
  have heq : ∀ d : Char, c.toNat = d.toNat → c = d := fun d h => Char.toNat_inj.1 h
  -- the control characters with an escape of their own are told by their code points
  unfold escapeChar
  split
  · rename_i h
    obtain rfl := h
    exact readString_unescape chars cs (by decide) rfl
  split
  · rename_i h
    obtain rfl := h
    exact readString_unescape chars cs (by decide) rfl
  split
  · rename_i hq hb hc
    exact readString_plain chars cs hq hb hc
  rename_i hc
  split
  · rename_i h
    obtain rfl := heq '\x08' h
    exact readString_unescape chars cs (by decide) rfl
  split
  · rename_i h
    obtain rfl := heq '\t' h
    exact readString_unescape chars cs (by decide) rfl
  split
  · rename_i h
    obtain rfl := heq '\n' h
    exact readString_unescape chars cs (by decide) rfl
  split
  · rename_i h
    obtain rfl := heq '\x0c' h
    exact readString_unescape chars cs (by decide) rfl
  split
  · rename_i h
    obtain rfl := heq '\r' h
    exact readString_unescape chars cs (by decide) rfl
  · exact readString_hex chars cs (Nat.not_le.1 hc)

theorem readString_escape (cs chars r : List Char) :
    readString (.plain chars) (escape cs ++ '"' :: r) =
      (.string (String.ofList (chars.reverse ++ cs)), some r) := by
  induction cs generalizing chars with
  | nil => rw [List.append_nil]; exact readString_quote chars r
  | cons c cs ih =>
    rw [escape, List.flatMap_cons, List.append_assoc, ← escape, readString_escapeChar, ih,
      List.reverse_cons, List.append_assoc, List.singleton_append]

/-- The reader of strings takes what is written for a text as that text. -/
theorem readString_renderString (s : String) (r : List Char) :
    readString .start (escape s.toList ++ '"' :: r) = (.string s, some r) := by
  have h := readString_escape s.toList [] r
  rwa [List.reverse_nil, List.nil_append, String.ofList_toList] at h

end Strings

/-! ### Integers -/

/-- What may follow a value: nothing that prolongs a number. -/
def Ends (cs : List Char) : Prop :=
  ∀ c ∈ cs.head?, c.isDigit = false ∧ c ≠ '.' ∧ c ≠ 'e' ∧ c ≠ 'E'

theorem ends_nil : Ends [] := by
  intro c hc
  cases hc

theorem ends_cons {c : Char} (cs : List Char)
    (h : c.isDigit = false ∧ c ≠ '.' ∧ c ≠ 'e' ∧ c ≠ 'E') : Ends (c :: cs) := by
  intro d hd
  obtain rfl := Option.some.inj hd
  exact h

section Integers
variable {negative : Bool} {n : Nat} {digits r : List Char}

theorem isDigit_of_mem_decimal {c : Char} (hc : c ∈ Nat.toDigits 10 n) : c.isDigit = true :=
  Nat.isDigit_of_mem_toDigits (by decide) (by decide) hc

theorem head?_decimal_ne_zero (hn : n ≠ 0) : (Nat.toDigits 10 n).head? ≠ some '0' := by
  induction n using Nat.strongRecOn with
  | ind n ih =>
    rcases Nat.lt_or_ge n 10 with hlt | hge
    · have hall : ∀ n < 10, n ≠ 0 → [n.digitChar].head? ≠ some '0' := by decide
      rw [Nat.toDigits_of_lt_base hlt]
      exact hall n hlt hn
    · rw [Nat.toDigits_of_base_le (by decide) hge,
        List.head?_append_of_ne_nil _ Nat.toDigits_ne_nil]
      exact ih (n / 10) (Nat.div_lt_self (by omega) (by decide)) (by omega)

theorem ofDigits_decimal (n : Nat) : ofDigits ((Nat.toDigits 10 n).map digitValue) = n := by
  rw [ofDigits, List.foldl_map]
  calc (Nat.toDigits 10 n).foldl (fun a c => a * 10 + digitValue c) 0
      = Nat.ofDigitChars 10 (Nat.toDigits 10 n) 0 := by
        rw [Nat.ofDigitChars_eq_foldl]
        refine congrArg (fun f => List.foldl f 0 (Nat.toDigits 10 n)) ?_
        funext a c
        rw [Nat.mul_comm, digitValue]
    _ = n := Nat.ofDigitChars_ten_toDigits

theorem spanDigits_append (hd : ∀ c ∈ digits, c.isDigit = true) (hr : Ends r) :
    spanDigits (digits ++ r) = (digits.map digitValue, r) := by
  have hstop : r.takeWhile Char.isDigit = [] ∧ r.dropWhile Char.isDigit = r := by
    cases r with
    | nil => exact ⟨rfl, rfl⟩
    | cons c cs =>
      have hc : ¬ c.isDigit = true := by rw [(hr c rfl).1]; decide
      exact ⟨List.takeWhile_cons_of_neg hc, List.dropWhile_cons_of_neg hc⟩
  rw [spanDigits, List.takeWhile_append_of_pos hd, List.dropWhile_append_of_pos hd, hstop.1,
    hstop.2, List.append_nil]

theorem readFraction_of_ends (whole : List Nat) (hr : Ends r) :
    readFraction negative whole r =
      (numberReading ((integer? negative (ofDigits whole)).orElse fun _ =>
        (Floating.readDecimal negative whole [] 0).map .float), some r) := by
  unfold readFraction
  split
  · exact absurd rfl (hr '.' rfl).2.1
  · exact absurd rfl (hr 'e' rfl).2.2.1
  · exact absurd rfl (hr 'E' rfl).2.2.2
  · rfl

/-- Digits without a needless zero are read as far as they go. -/
theorem readNumber_append (hd : ∀ c ∈ digits, c.isDigit = true) (hne : digits ≠ [])
    (hzero : digits = ['0'] ∨ digits.head? ≠ some '0') (hr : Ends r) :
    readNumber negative (digits ++ r) = readFraction negative (digits.map digitValue) r := by
  have hspan := spanDigits_append hd hr
  rcases hzero with rfl | hzero
  · cases r with
    | nil => rfl
    | cons c cs =>
      show (if c.isDigit = true then _ else _) = _
      rw [(hr c rfl).1]
      rfl
  · cases digits with
    | nil => exact absurd rfl hne
    | cons d ds =>
      have hdigit : d.isDigit = true := hd d (List.mem_cons_self ..)
      rw [List.cons_append] at hspan ⊢
      unfold readNumber
      split
      · rename_i h
        cases h
      · rename_i h
        obtain ⟨rfl, -⟩ := List.cons.inj h
        exact absurd rfl hzero
      · rename_i h
        obtain ⟨rfl, rfl⟩ := List.cons.inj h
        rw [if_pos hdigit, hspan]

/-- The reader of numbers takes the decimal digits of an integer for that integer. -/
theorem readNumber_decimal {x : Number} (hx : integer? negative n = some x) (hr : Ends r) :
    readNumber negative (Nat.toDigits 10 n ++ r) = (.number x, some r) := by
  have hzero : Nat.toDigits 10 n = ['0'] ∨ (Nat.toDigits 10 n).head? ≠ some '0' := by
    by_cases hn : n = 0
    · exact .inl (by rw [hn, Nat.toDigits_zero])
    · exact .inr (head?_decimal_ne_zero hn)
  rw [readNumber_append (fun _ => isDigit_of_mem_decimal) Nat.toDigits_ne_nil hzero hr,
    readFraction_of_ends _ hr, ofDigits_decimal, hx]
  rfl

end Integers

end DialogueWindows.Json
