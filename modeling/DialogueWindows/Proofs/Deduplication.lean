import DialogueWindows.Digest.Blake3
import DialogueWindows.Example
import DialogueWindows.Proofs.StateText
import Mathlib.Data.List.Induction
import Mathlib.Data.List.Nodup

/-! # Deduplication

Examples are told apart by the digests of their contents (`deduplicate_by_content`). The digests seen
are those of the examples before, so that deduplicating a part first changes nothing
(`deduplicate_append_left`, `deduplicate_append_right`). That equal digests mean equal contents is
the injectivity of the compact text, as far as the digest tells the texts of the list apart. -/

namespace DialogueWindows

/-- The text that the digest of an example stands for. -/
def contentText (window : Window) (label : String) : String :=
  (Json.array [Window.toJson window, .string label]).compact

theorem exampleHash_eq (digest : String → String) (window : Window) (label : String) :
    exampleHash digest window label = digest (contentText window label) :=
  rfl

theorem exact_content (window : Window) (label : String) :
    Json.Exact (.array [Window.toJson window, .string label]) := by
  refine .array fun j hj => ?_
  rcases List.mem_cons.1 hj with rfl | hj
  · exact Window.exact_toJson window
  · rw [List.mem_singleton.1 hj]
    exact .string label

theorem contentText_eq_iff {w w' : Window} {l l' : String} :
    contentText w l = contentText w' l' ↔ w = w' ∧ l = l' := by
  constructor
  · intro h
    have hjson := Json.compact_injective (exact_content w l) (exact_content w' l') h
    obtain ⟨hw, hitems⟩ := List.cons.inj (Json.array.inj hjson)
    obtain ⟨hl, -⟩ := List.cons.inj hitems
    exact ⟨Window.toJson_injective hw, Json.string.inj hl⟩
  · rintro ⟨rfl, rfl⟩
    rfl

/-! ### By digest -/

def hashes (xs : List TrainingExample) : List String :=
  xs.map (·.contentHash)

section Digest
variable {seen seen' : List String} {xs : List TrainingExample} {e : TrainingExample} {t : String}

theorem mem_hashes_cons : t ∈ hashes (e :: xs) ↔ t = e.contentHash ∨ t ∈ hashes xs :=
  List.mem_cons

theorem deduplicateFrom_congr (h : ∀ t, t ∈ seen ↔ t ∈ seen') (xs : List TrainingExample) :
    deduplicateFrom seen xs = deduplicateFrom seen' xs := by
  induction xs generalizing seen seen' with
  | nil => rfl
  | cons e rest ih =>
    have hcons : ∀ t, t ∈ e.contentHash :: seen ↔ t ∈ e.contentHash :: seen' := by
      intro t
      rw [List.mem_cons, List.mem_cons, h]
    rw [deduplicateFrom, deduplicateFrom, ih h, ih hcons]
    by_cases he : e.contentHash ∈ seen
    · rw [if_pos he, if_pos ((h _).1 he)]
    · rw [if_neg he, if_neg fun he' => he ((h _).2 he')]

theorem mem_hashes_deduplicateFrom :
    t ∈ hashes (deduplicateFrom seen xs) ↔ t ∈ hashes xs ∧ t ∉ seen := by
  induction xs generalizing seen with
  | nil => exact ⟨fun h => absurd h List.not_mem_nil, fun h => absurd h.1 List.not_mem_nil⟩
  | cons e rest ih =>
    rw [deduplicateFrom, mem_hashes_cons]
    split
    · rename_i he
      rw [ih]
      constructor
      · rintro ⟨ht, hs⟩
        exact ⟨.inr ht, hs⟩
      · rintro ⟨rfl | ht, hs⟩
        · exact absurd he hs
        · exact ⟨ht, hs⟩
    · rename_i he
      rw [mem_hashes_cons, ih, List.mem_cons, not_or]
      constructor
      · rintro (rfl | ⟨ht, -, hs⟩)
        · exact ⟨.inl rfl, he⟩
        · exact ⟨.inr ht, hs⟩
      · rintro ⟨ht, hs⟩
        by_cases hte : t = e.contentHash
        · exact .inl hte
        · exact .inr ⟨ht.resolve_left hte, hte, hs⟩

theorem nodup_hashes_deduplicateFrom : (hashes (deduplicateFrom seen xs)).Nodup := by
  induction xs generalizing seen with
  | nil => exact List.nodup_nil
  | cons e rest ih =>
    rw [deduplicateFrom]
    split
    · exact ih
    · refine List.nodup_cons.2 ⟨fun hmem => ?_, ih⟩
      exact (mem_hashes_deduplicateFrom.1 hmem).2 (List.mem_cons_self ..)

theorem deduplicateFrom_sublist (seen : List String) (xs : List TrainingExample) :
    (deduplicateFrom seen xs).Sublist xs := by
  induction xs generalizing seen with
  | nil => exact .slnil
  | cons e rest ih =>
    rw [deduplicateFrom]
    split
    · exact (ih seen).cons e
    · exact (ih (e.contentHash :: seen)).cons_cons e

/-- After some examples their digests count as seen. -/
theorem deduplicateFrom_append (seen : List String) (xs ys : List TrainingExample) :
    deduplicateFrom seen (xs ++ ys) =
      deduplicateFrom seen xs ++ deduplicateFrom (hashes xs ++ seen) ys := by
  induction xs generalizing seen with
  | nil => rfl
  | cons e rest ih =>
    rw [List.cons_append, deduplicateFrom, deduplicateFrom, ih, ih]
    split
    · rename_i he
      -- the dropped example's digest is among those seen, so it may count twice
      refine congrArg _ (deduplicateFrom_congr (fun t => ?_) ys)
      rw [List.mem_append, List.mem_append, mem_hashes_cons, or_assoc]
      refine ⟨.inr, fun ht => ?_⟩
      rcases ht with rfl | ht
      · exact .inr he
      · exact ht
    · refine congrArg (e :: _ ++ ·) (deduplicateFrom_congr (fun t => ?_) ys)
      exact List.perm_middle.mem_iff

/-- What is dropped for fewer seen digests is dropped for more. -/
theorem deduplicateFrom_deduplicateFrom (h : seen' ⊆ seen) (xs : List TrainingExample) :
    deduplicateFrom seen (deduplicateFrom seen' xs) = deduplicateFrom seen xs := by
  induction xs generalizing seen seen' with
  | nil => rfl
  | cons e rest ih =>
    rw [deduplicateFrom, deduplicateFrom]
    by_cases he' : e.contentHash ∈ seen'
    · rw [if_pos he', if_pos (h he'), ih h]
    · rw [if_neg he', deduplicateFrom]
      by_cases he : e.contentHash ∈ seen
      · rw [if_pos he, if_pos he, ih (List.cons_subset.2 ⟨he, h⟩)]
      · rw [if_neg he, if_neg he, ih (List.cons_subset_cons _ h)]

theorem mem_hashes_deduplicate : t ∈ hashes (deduplicate xs) ↔ t ∈ hashes xs := by
  rw [deduplicate, mem_hashes_deduplicateFrom]
  exact and_iff_left List.not_mem_nil

theorem deduplicate_deduplicate (xs : List TrainingExample) :
    deduplicate (deduplicate xs) = deduplicate xs :=
  deduplicateFrom_deduplicateFrom (List.Subset.refl []) xs

theorem deduplicate_append_left (xs ys : List TrainingExample) :
    deduplicate (deduplicate xs ++ ys) = deduplicate (xs ++ ys) := by
  have hseen : ∀ t, t ∈ hashes (deduplicate xs) ++ [] ↔ t ∈ hashes xs ++ [] := by
    intro t
    rw [List.append_nil, List.append_nil, mem_hashes_deduplicate]
  calc deduplicate (deduplicate xs ++ ys)
      = deduplicate (deduplicate xs) ++ deduplicateFrom (hashes (deduplicate xs) ++ []) ys :=
        deduplicateFrom_append [] (deduplicate xs) ys
    _ = deduplicate xs ++ deduplicateFrom (hashes xs ++ []) ys := by
        rw [deduplicate_deduplicate, deduplicateFrom_congr hseen]
    _ = deduplicate (xs ++ ys) := (deduplicateFrom_append [] xs ys).symm

theorem deduplicate_concat (xs : List TrainingExample) (e : TrainingExample) :
    deduplicate (xs ++ [e]) = deduplicate xs ++ if e.contentHash ∈ hashes xs then [] else [e] := by
  rw [deduplicate, deduplicateFrom_append, List.append_nil]
  rfl

end Digest

/-! ### By content -/

/-- What an example shows and the label that it gives to that. -/
def TrainingExample.content (e : TrainingExample) : Window × String :=
  (e.window, e.labelAction)

/-- The examples that repeat the content of no earlier one. -/
def firsts (xs : List TrainingExample) : List TrainingExample :=
  (xs.zipIdx.filter fun x => x.1.content ∉ (xs.take x.2).map (·.content)).map (·.1)

theorem firsts_concat (xs : List TrainingExample) (e : TrainingExample) :
    firsts (xs ++ [e]) = firsts xs ++ if e.content ∈ xs.map (·.content) then [] else [e] := by
  have hbefore : ∀ x ∈ xs.zipIdx, (xs ++ [e]).take x.2 = xs.take x.2 := by
    intro x hx
    have hlt : x.2 < xs.length := (List.getElem?_eq_some_iff.1
      (List.mk_mem_zipIdx_iff_getElem?.1 hx)).1
    exact List.take_append_of_le_length (Nat.le_of_lt hlt)
  rw [firsts, List.zipIdx_append, List.filter_append, List.map_append]
  congr 1
  · refine congrArg _ (List.filter_congr fun x hx => ?_)
    rw [hbefore x hx]
  · rw [Nat.zero_add, List.zipIdx_singleton, List.filter_singleton, List.take_left' rfl]
    by_cases he : e.content ∈ xs.map (·.content)
    · rw [if_pos he, decide_eq_false (not_not.2 he)]
      rfl
    · rw [if_neg he, decide_eq_true he]
      rfl

section Content
variable {digest : String → String} {xs ys : List TrainingExample}

/-- The digests stand for the contents and tell their texts apart. -/
structure Faithful (digest : String → String) (xs : List TrainingExample) : Prop where
  hash : ∀ e ∈ xs, e.contentHash = exampleHash digest e.window e.labelAction
  apart : ∀ e ∈ xs, ∀ f ∈ xs,
    digest (contentText e.window e.labelAction) = digest (contentText f.window f.labelAction) →
      contentText e.window e.labelAction = contentText f.window f.labelAction

theorem Faithful.of_sublist (h : Faithful digest ys) (hsub : xs.Sublist ys) : Faithful digest xs :=
  ⟨fun e he => h.hash e (hsub.mem he),
    fun e he f hf => h.apart e (hsub.mem he) f (hsub.mem hf)⟩

theorem Faithful.hash_eq_iff (h : Faithful digest xs) {e f : TrainingExample} (he : e ∈ xs)
    (hf : f ∈ xs) : e.contentHash = f.contentHash ↔ e.content = f.content := by
  rw [h.hash e he, h.hash f hf, TrainingExample.content, TrainingExample.content, Prod.mk.injEq,
    exampleHash_eq, exampleHash_eq]
  constructor
  · intro heq
    exact contentText_eq_iff.1 (h.apart e he f hf heq)
  · rintro ⟨hw, hl⟩
    rw [hw, hl]

theorem Faithful.mem_hashes_iff (h : Faithful digest ys) (hsub : xs ⊆ ys) {e : TrainingExample}
    (he : e ∈ ys) : e.contentHash ∈ hashes xs ↔ e.content ∈ xs.map (·.content) := by
  rw [hashes, List.mem_map, List.mem_map]
  refine exists_congr fun f => and_congr_right fun hf => ?_
  exact h.hash_eq_iff (hsub hf) he

theorem Faithful.deduplicate_eq_firsts (h : Faithful digest xs) : deduplicate xs = firsts xs := by
  induction xs using List.reverseRecOn with
  | nil => rfl
  | append_singleton xs e ih =>
    rw [deduplicate_concat, firsts_concat, ih (h.of_sublist (List.sublist_append_left xs [e]))]
    have he : e ∈ xs ++ [e] := List.mem_append_right _ (List.mem_singleton_self e)
    have hiff := h.mem_hashes_iff (List.subset_append_left xs [e]) he
    by_cases hmem : e.contentHash ∈ hashes xs
    · rw [if_pos hmem, if_pos (hiff.1 hmem)]
    · rw [if_neg hmem, if_neg fun hc => hmem (hiff.2 hc)]

theorem Faithful.mem_contents_deduplicate (h : Faithful digest xs) {c : Window × String} :
    c ∈ (deduplicate xs).map (·.content) ↔ c ∈ xs.map (·.content) := by
  have hsub := (deduplicateFrom_sublist [] xs).subset
  rw [List.mem_map, List.mem_map]
  constructor
  · rintro ⟨e, he, hc⟩
    exact ⟨e, hsub he, hc⟩
  · rintro ⟨e, he, rfl⟩
    have hmem := mem_hashes_deduplicate.2 (List.mem_map_of_mem he)
    exact List.mem_map.1 ((h.mem_hashes_iff hsub he).1 hmem)

theorem Faithful.nodup_contents_deduplicate (h : Faithful digest xs) :
    ((deduplicate xs).map (·.content)).Nodup := by
  have hsub := (deduplicateFrom_sublist [] xs).subset
  have hnodup : (hashes (deduplicate xs)).Nodup := nodup_hashes_deduplicateFrom
  refine List.Nodup.map_on (fun e he f hf hef => ?_) (List.Nodup.of_map _ hnodup)
  exact List.inj_on_of_nodup_map hnodup he hf ((h.hash_eq_iff (hsub he) (hsub hf)).2 hef)

/-- Deduplicating keeps exactly the examples that repeat the window and label of no earlier one. No
window and label is lost, none is left twice, and it does not matter which parts of a list have been
deduplicated before. -/
theorem deduplicate_by_content (h : Faithful digest xs) :
    deduplicate xs = firsts xs ∧
      (∀ c, c ∈ (deduplicate xs).map (·.content) ↔ c ∈ xs.map (·.content)) ∧
      ((deduplicate xs).map (·.content)).Nodup ∧
      (∀ w l w' l', contentText w l = contentText w' l' ↔ w = w' ∧ l = l') ∧
      (∀ ys, deduplicate (deduplicate ys) = deduplicate ys) ∧
      ∀ ys zs, deduplicate (ys ++ zs) = deduplicate (deduplicate ys ++ zs) :=
  ⟨h.deduplicate_eq_firsts, fun _ => h.mem_contents_deduplicate, h.nodup_contents_deduplicate,
    fun _ _ _ _ => contentText_eq_iff, deduplicate_deduplicate,
    fun ys zs => (deduplicate_append_left ys zs).symm⟩

end Content

/-- A text and a literal that print the same make two windows. -/
theorem deduplicate_by_content_alike :
    let sample (dialogueId : String) (value : AttributeValue) : TrainingExample :=
      let window := [State.empty.set .slots "n" value]
      ⟨dialogueId, window, "greet", 0, [[]], exampleHash Blake3.hexDigest window "greet"⟩
    let text := sample "a" (.text "1")
    let literal := sample "b" (.literal "1")
    let again := sample "c" (.text "1")
    Faithful Blake3.hexDigest [text, literal, again] ∧
      deduplicate [text, literal, again] = [text, literal] := by
  intro sample text literal again
  have hne : Blake3.hexDigest (contentText text.window text.labelAction) ≠
      Blake3.hexDigest (contentText literal.window literal.labelAction) := by decide +kernel
  have hall : ∀ P : TrainingExample → Prop, P text → P literal → P again →
      ∀ e ∈ [text, literal, again], P e := by
    intro P htext hliteral hagain
    rw [List.forall_mem_cons, List.forall_mem_cons, List.forall_mem_singleton]
    exact ⟨htext, hliteral, hagain⟩
  have hfaithful : Faithful Blake3.hexDigest [text, literal, again] := by
    refine ⟨hall _ rfl rfl rfl, hall _ (hall _ ?_ ?_ ?_) (hall _ ?_ ?_ ?_) (hall _ ?_ ?_ ?_)⟩
    · exact fun _ => rfl
    · exact fun h => absurd h hne
    · exact fun _ => rfl
    · exact fun h => absurd h.symm hne
    · exact fun _ => rfl
    · exact fun h => absurd h.symm hne
    · exact fun _ => rfl
    · exact fun h => absurd h hne
    · exact fun _ => rfl
  refine ⟨hfaithful, ?_⟩
  rw [(deduplicate_by_content hfaithful).1]
  rfl

end DialogueWindows
