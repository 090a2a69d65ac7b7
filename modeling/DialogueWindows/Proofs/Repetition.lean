import DialogueWindows.Proofs.Alignment
import DialogueWindows.Proofs.Bounds

/-! # Which examples repeat others

The examples of a batch are numbered as they are made, whatever the bound on the history. Where
repeated ones are dropped, those stay whose digest occurs for the first time (`deduplicate_eq`). A
longer bound tells more windows apart, so it keeps what a shorter one keeps. Without a bound each
window of a dialogue is longer than those before it, so an example repeats none of its own dialogue.
Both are said in `Engine.longer_keeps_more`. -/

namespace DialogueWindows

/-! ### First positions -/

section Lists
variable {α : Type} [DecidableEq α] {xs ys : List α} {p : Nat}

/-- The positions of the elements that occur for the first time. -/
def firstPositions (xs : List α) : List Nat :=
  (List.range xs.length).filter fun p => ∀ q < p, xs[q]? ≠ xs[p]?

theorem mem_firstPositions :
    p ∈ firstPositions xs ↔ p < xs.length ∧ ∀ q < p, xs[q]? ≠ xs[p]? := by
  rw [firstPositions, List.mem_filter, List.mem_range, decide_eq_true_eq]

theorem firstPositions_concat (xs : List α) (x : α) :
    firstPositions (xs ++ [x]) = firstPositions xs ++ if x ∈ xs then [] else [xs.length] := by
  rw [firstPositions, List.length_append, List.length_singleton, List.range_succ,
    List.filter_append]
  congr 1
  · refine List.filter_congr fun p hp => decide_eq_decide.2 (forall₂_congr fun q hq => ?_)
    have hlt := List.mem_range.1 hp
    rw [List.getElem?_append_left hlt, List.getElem?_append_left (hq.trans hlt)]
  · have hrepeats : (∀ q < xs.length, (xs ++ [x])[q]? ≠ (xs ++ [x])[xs.length]?) ↔ x ∉ xs := by
      rw [List.getElem?_concat_length, List.mem_iff_getElem?, not_exists]
      refine forall_congr' fun q => ?_
      constructor
      · intro h hq
        have hlt := (List.getElem?_eq_some_iff.1 hq).1
        exact h hlt ((List.getElem?_append_left hlt).trans hq)
      · intro h hlt
        rwa [List.getElem?_append_left hlt]
    rw [List.filter_singleton, decide_eq_decide.2 hrepeats]
    by_cases hx : x ∈ xs
    · rw [if_pos hx, decide_eq_false (not_not.2 hx)]
      rfl
    · rw [if_neg hx, decide_eq_true hx]
      rfl

theorem exists_lt_of_not_mem_firstPositions (hp : p < xs.length) (h : p ∉ firstPositions xs) :
    ∃ q < p, xs[q]? = xs[p]? := by
  by_contra! hall
  exact h (mem_firstPositions.2 ⟨hp, hall⟩)

/-- Where fewer elements are equal, more positions are first ones. -/
theorem firstPositions_sublist (hlength : xs.length = ys.length)
    (h : ∀ p q : Nat, ys[q]? = ys[p]? → xs[q]? = xs[p]?) :
    (firstPositions xs).Sublist (firstPositions ys) := by
  rw [firstPositions, firstPositions, hlength]
  refine List.monotone_filter_right _ fun p hp => ?_
  rw [decide_eq_true_eq] at hp ⊢
  exact fun q hq heq => hp q hq (h p q heq)

end Lists

/-! ### Examples -/

section Examples
variable {digest : String → String} {xs : List TrainingExample} {k k' : Option Nat}

theorem length_hashes (xs : List TrainingExample) : (hashes xs).length = xs.length :=
  List.length_map _

theorem hashes_concat (xs : List TrainingExample) (x : TrainingExample) :
    hashes (xs ++ [x]) = hashes xs ++ [x.contentHash] :=
  List.map_append

/-- Deduplicating keeps the examples at the first positions. -/
theorem deduplicate_eq (xs : List TrainingExample) :
    deduplicate xs = (firstPositions (hashes xs)).filterMap (xs[·]?) := by
  induction xs using List.reverseRecOn with
  | nil => rfl
  | append_singleton xs x ih =>
    have hbefore : (firstPositions (hashes xs)).filterMap ((xs ++ [x])[·]?) =
        (firstPositions (hashes xs)).filterMap (xs[·]?) := by
      refine List.filterMap_congr fun p hp => List.getElem?_append_left ?_
      rw [← length_hashes xs]
      exact (mem_firstPositions.1 hp).1
    rw [deduplicate_concat, ih, hashes_concat, firstPositions_concat, List.filterMap_append, hbefore]
    split
    · rfl
    · rw [length_hashes, List.filterMap_cons_some List.getElem?_concat_length]
      rfl

theorem deduplicate_of_nodup (h : (hashes xs).Nodup) : deduplicate xs = xs := by
  induction xs using List.reverseRecOn with
  | nil => rfl
  | append_singleton xs x ih =>
    rw [hashes_concat, ← List.concat_eq_append, List.nodup_concat] at h
    rw [deduplicate_concat, ih h.2, if_neg h.1]

/-- The digest tells the contents of the examples apart. -/
def TellsContentsApart (digest : String → String) (xs : List TrainingExample) : Prop :=
  ∀ x ∈ xs, ∀ y ∈ xs,
    digest (contentText x.window x.labelAction) = digest (contentText y.window y.labelAction) →
      contentText x.window x.labelAction = contentText y.window y.labelAction

theorem tellsContentsApart_of_texts {texts : List String}
    (htexts : ∀ x ∈ xs, contentText x.window x.labelAction ∈ texts)
    (hdigests : (texts.map digest).Nodup) : TellsContentsApart digest xs :=
  fun x hx y hy heq => List.inj_on_of_nodup_map hdigests (htexts x hx) (htexts y hy) heq

/-- The bound `k` is not greater than `k'`, none being the greatest. -/
def NoLonger (k k' : Option Nat) : Prop :=
  ∀ n ∈ k', ∃ m ∈ k, m ≤ n

theorem NoLonger.merge (h : NoLonger k k') : Option.merge min k' k = k := by
  cases k' with
  | none => cases k <;> rfl
  | some n =>
    obtain ⟨m, rfl, hmn⟩ := h n rfl
    exact congrArg some (Nat.min_eq_right hmn)

theorem NoLonger.cut_cut (h : NoLonger k k') (x : TrainingExample) :
    (x.cut digest k').cut digest k = x.cut digest k := by
  simp only [TrainingExample.cut, ending_ending, h.merge]

theorem Faithful.firstPositions_cut (h : Faithful digest xs) (k : Option Nat) :
    (firstPositions (hashes (xs.map (·.cut digest k)))).Sublist (firstPositions (hashes xs)) := by
  have hcut (p : Nat) : (hashes (xs.map (·.cut digest k)))[p]? =
      xs[p]?.map fun x => exampleHash digest (ending k x.window) x.labelAction := by
    rw [hashes, List.map_map, List.getElem?_map]
    rfl
  refine firstPositions_sublist (by simp only [length_hashes, List.length_map]) fun p q heq => ?_
  rw [hashes, List.getElem?_map, List.getElem?_map] at heq
  rw [hcut, hcut]
  cases hq : xs[q]? with
  | none =>
    rw [hq, Option.map_none, eq_comm, Option.map_eq_none_iff] at heq
    rw [heq]
  | some y =>
    rw [hq, Option.map_some, eq_comm, Option.map_eq_some_iff] at heq
    obtain ⟨x, hx, hhash⟩ := heq
    -- equal windows have equal endings
    have hcontent := (h.hash_eq_iff (List.mem_of_getElem? hx) (List.mem_of_getElem? hq)).1 hhash
    obtain ⟨hwindow, hlabel⟩ := Prod.mk.inj hcontent
    rw [hx, Option.map_some, Option.map_some, hwindow, hlabel]

theorem Faithful.nodup_hashes (h : Faithful digest xs)
    (hgrow : xs.Pairwise fun x y => x.window.length < y.window.length) : (hashes xs).Nodup := by
  refine List.pairwise_map.2 (hgrow.imp_of_mem fun hx hy hlt heq => hlt.ne ?_)
  exact congrArg (·.1.length) ((h.hash_eq_iff hx hy).1 heq)

theorem length_windowOf {turns : List Turn} {x : Nat × String} (h : x ∈ labels turns) :
    (windowOf turns none x).window.length = x.1 := by
  show (((turns.take x.1).drop 0).map _).length = x.1
  rw [List.length_map, List.drop_zero, List.length_take_of_le (lt_of_mem_positions h).le]

/-- Without a bound each window of a dialogue is longer than those before it. -/
theorem windows_grow {ctx : Context} {v : Visibility} {d : Dialogue} (hbound : ctx.maxHistory = none)
    (h : trainingExamples ctx v d = .ok xs) :
    xs.Pairwise fun x y => x.window.length < y.window.length := by
  obtain ⟨turns, -, h⟩ := exists_ok_of_bind h
  rw [mapM_eq_ok_iff, labelledWindows_eq, hbound, List.forall₂_map_left_iff] at h
  have hlengths : (labels turns).map (·.1) = xs.map (·.window.length) := by
    rw [← List.forall₂_eq_eq_eq, List.forall₂_map_left_iff, List.forall₂_map_right_iff]
    refine ((List.forall₂_and_left (p := (· ∈ labels turns)) _ _).2 ⟨fun _ hx => hx, h⟩).imp ?_
    rintro x y ⟨hx, hy⟩
    obtain ⟨label, -, hy⟩ := exists_ok_of_bind hy
    obtain rfl := Except.ok.inj hy
    exact (length_windowOf hx).symm
  rw [← List.pairwise_map (f := fun x : TrainingExample => x.window.length), ← hlengths,
    List.pairwise_map]
  exact pairwise_positions _ _

end Examples

/-! ### Batches -/

namespace Engine
variable {e : Engine} {hide : Bool} {d : Dialogue} {ds : List Dialogue} {k k' : Option Nat}

/-- The engine that drops no examples. -/
def keepingRepeats (e : Engine) : Engine :=
  { e with config := { e.config with removeDuplicates := false } }

/-- The examples of a batch before any is dropped. -/
def produced (e : Engine) (hide : Bool) (ds : List Dialogue) : List TrainingExample :=
  (e.keepingRepeats.examples hide ds).data

/-- The numbers of the examples that stay. -/
def kept (e : Engine) (hide : Bool) (ds : List Dialogue) : List Nat :=
  firstPositions (hashes (e.produced hide ds))

theorem produced_eq (e : Engine) (hide : Bool) (ds : List Dialogue) :
    e.produced hide ds = ds.flatMap (e.ownExamples hide) :=
  e.keepingRepeats.examples_data hide ds

theorem produced_append (e : Engine) (hide : Bool) (ds ds' : List Dialogue) :
    e.produced hide (ds ++ ds') = e.produced hide ds ++ e.produced hide ds' := by
  rw [produced_eq, produced_eq, produced_eq, List.flatMap_append]

theorem produced_cons (e : Engine) (hide : Bool) (d : Dialogue) (ds : List Dialogue) :
    e.produced hide (d :: ds) = e.ownExamples hide d ++ e.produced hide ds := by
  rw [produced_eq, produced_eq, List.flatMap_cons]

theorem mem_produced {x : TrainingExample} :
    x ∈ e.produced hide ds ↔ ∃ d ∈ ds, x ∈ e.ownExamples hide d := by
  rw [produced_eq, List.mem_flatMap]

theorem examples_data_eq_merge (e : Engine) (hide : Bool) (ds : List Dialogue) :
    (e.examples hide ds).data = e.merge (e.produced hide ds) := by
  rw [examples_data, ← List.flatMap_def, ← produced_eq]

theorem examples_data_eq (hdrop : e.config.removeDuplicates = true) (hide : Bool)
    (ds : List Dialogue) :
    (e.examples hide ds).data = (e.kept hide ds).filterMap ((e.produced hide ds)[·]?) := by
  rw [examples_data_eq_merge, merge, if_pos hdrop, deduplicate_eq, kept]

/-- A dialogue makes the examples of its training, or none. -/
theorem ownExamples_cases {P : List TrainingExample → Prop} (error : P [])
    (ok : ∀ examples, trainingExamples e.context ⟨false, hide⟩ d = .ok examples → P examples) :
    P (e.ownExamples hide d) := by
  unfold ownExamples
  cases h : trainingExamples e.context ⟨false, hide⟩ d with
  | error failure => exact error
  | ok examples => exact ok examples h

theorem contentHash_of_mem_ownExamples (e : Engine) (hide : Bool) (d : Dialogue) :
    ∀ x ∈ e.ownExamples hide d,
      x.contentHash = exampleHash e.encoder.digest x.window x.labelAction := by
  refine ownExamples_cases
    (P := fun xs => ∀ x ∈ xs, x.contentHash = exampleHash e.encoder.digest x.window x.labelAction)
    (List.forall_mem_nil _) fun examples h x hx => ?_
  obtain ⟨turns, -, h⟩ := exists_ok_of_bind h
  obtain ⟨w, -, hx⟩ := exists_of_mem_mapM h hx
  obtain ⟨label, -, hx⟩ := exists_ok_of_bind hx
  obtain rfl := Except.ok.inj hx
  rfl

theorem ownExamples_grow (hbound : e.config.maxHistory = none) (hide : Bool) (d : Dialogue) :
    (e.ownExamples hide d).Pairwise fun x y => x.window.length < y.window.length :=
  ownExamples_cases .nil fun _ => windows_grow hbound

theorem faithful_produced (h : TellsContentsApart e.encoder.digest (e.produced hide ds)) :
    Faithful e.encoder.digest (e.produced hide ds) := by
  refine ⟨fun x hx => ?_, h⟩
  obtain ⟨d, -, hx⟩ := mem_produced.1 hx
  exact e.contentHash_of_mem_ownExamples hide d x hx

theorem ownExamples_withBound (e : Engine) (k : Option Nat) (hide : Bool) (d : Dialogue) :
    (e.withBound k).ownExamples hide d =
      ((e.withBound none).ownExamples hide d).map (·.cut e.encoder.digest k) := by
  have hcut : trainingExamples (e.withBound k).context ⟨false, hide⟩ d =
      (trainingExamples (e.withBound none).context ⟨false, hide⟩ d).map
        (List.map (·.cut e.encoder.digest k)) :=
    trainingExamples_withBound e.context k ⟨false, hide⟩ d
  rw [ownExamples, ownExamples, hcut]
  cases trainingExamples (e.withBound none).context ⟨false, hide⟩ d <;> rfl

theorem produced_withBound (e : Engine) (k : Option Nat) (hide : Bool) (ds : List Dialogue) :
    (e.withBound k).produced hide ds =
      ((e.withBound none).produced hide ds).map (·.cut e.encoder.digest k) := by
  rw [produced_eq, produced_eq, List.map_flatMap]
  exact List.flatMap_congr fun d _ => e.ownExamples_withBound k hide d

/-- Cutting further drops no more windows than it makes equal. -/
theorem kept_sublist (hk : NoLonger k k')
    (h : TellsContentsApart e.encoder.digest ((e.withBound k').produced hide ds)) :
    ((e.withBound k).kept hide ds).Sublist ((e.withBound k').kept hide ds) := by
  have hcut : (e.withBound k).produced hide ds =
      ((e.withBound k').produced hide ds).map (·.cut e.encoder.digest k) := by
    rw [produced_withBound, produced_withBound e k', List.map_map]
    exact List.map_congr_left fun x _ => (hk.cut_cut x).symm
  rw [kept, kept, hcut]
  exact (faithful_produced h).firstPositions_cut k

/-- The example with this number repeats one of an earlier dialogue. -/
def RepeatsEarlier (e : Engine) (hide : Bool) (ds : List Dialogue) (n : Nat) : Prop :=
  ∃ before d after i x, ds = before ++ d :: after ∧ n = (e.produced hide before).length + i ∧
    (e.ownExamples hide d)[i]? = some x ∧
    ∃ d' ∈ before, ∃ y ∈ e.ownExamples hide d',
      y.content = x.content ∧ y.window.length = x.window.length

/-- Every number belongs to one of the dialogues. -/
theorem exists_own_of_lt {n : Nat} (h : n < (e.produced hide ds).length) :
    ∃ before d after i x, ds = before ++ d :: after ∧ n = (e.produced hide before).length + i ∧
      (e.ownExamples hide d)[i]? = some x := by
  induction ds generalizing n with
  | nil => exact absurd h (Nat.not_lt_zero n)
  | cons d rest ih =>
    rw [produced_cons, List.length_append] at h
    rcases Nat.lt_or_ge n (e.ownExamples hide d).length with hn | hn
    · exact ⟨[], d, rest, n, _, rfl, (Nat.zero_add n).symm, List.getElem?_eq_getElem hn⟩
    · obtain ⟨before, d', after, i, x, rfl, hi, hx⟩ := ih (Nat.sub_lt_left_of_lt_add hn h)
      refine ⟨d :: before, d', after, i, x, rfl, ?_, hx⟩
      rw [produced_cons, List.length_append]
      omega

theorem getElem?_produced (before after : List Dialogue) {j : Nat}
    (hj : j < (e.ownExamples hide d).length) :
    (e.produced hide (before ++ d :: after))[(e.produced hide before).length + j]? =
      (e.ownExamples hide d)[j]? := by
  rw [produced_append, produced_cons, List.getElem?_append_right (Nat.le_add_right _ _),
    Nat.add_sub_cancel_left, List.getElem?_append_left hj]

theorem repeatsEarlier_of_not_mem_kept (hbound : e.config.maxHistory = none)
    (h : Faithful e.encoder.digest (e.produced hide ds)) {n : Nat}
    (hn : n < (e.produced hide ds).length) (hdropped : n ∉ e.kept hide ds) :
    e.RepeatsEarlier hide ds n := by
  have hhashes : n < (hashes (e.produced hide ds)).length := by rwa [length_hashes]
  obtain ⟨q, hq, hhash⟩ := exists_lt_of_not_mem_firstPositions hhashes hdropped
  obtain ⟨before, d, after, i, x, rfl, rfl, hx⟩ := exists_own_of_lt hn
  have hi := (List.getElem?_eq_some_iff.1 hx).1
  have hnx := (getElem?_produced before after hi).trans hx
  rw [hashes, List.getElem?_map, List.getElem?_map, hnx, Option.map_some,
    Option.map_eq_some_iff] at hhash
  obtain ⟨y, hqy, hyx⟩ := hhash
  have hcontent := (h.hash_eq_iff (List.mem_of_getElem? hqy) (List.mem_of_getElem? hnx)).1 hyx
  have hlength : y.window.length = x.window.length := congrArg (·.1.length) hcontent
  rcases Nat.lt_or_ge q (e.produced hide before).length with hbefore | hown
  · rw [produced_append, List.getElem?_append_left hbefore] at hqy
    obtain ⟨d', hd', hy⟩ := mem_produced.1 (List.mem_of_getElem? hqy)
    exact ⟨before, d, after, i, x, rfl, rfl, hx, d', hd', y, hy, hcontent, hlength⟩
  · -- the windows of one dialogue differ in length
    obtain ⟨j, rfl⟩ := Nat.exists_eq_add_of_le hown
    have hji : j < i := Nat.lt_of_add_lt_add_left hq
    rw [getElem?_produced before after (hji.trans hi)] at hqy
    have hlt := List.pairwise_iff_getElem.1 (ownExamples_grow hbound hide d) j i (hji.trans hi) hi hji
    rw [(List.getElem?_eq_some_iff.1 hqy).2, (List.getElem?_eq_some_iff.1 hx).2] at hlt
    exact absurd hlength hlt.ne

/-! ### Answers -/

/-- The examples with one number differ in nothing but the bound, and those that stay make the
answer. -/
structure NumbersExamples (e : Engine) (hide : Bool) (ds : List Dialogue) (k : Option Nat) :
    Prop where
  produced : (e.withBound k).produced hide ds =
    ((e.withBound none).produced hide ds).map (·.cut e.encoder.digest k)
  data : ((e.withBound k).trainingStates hide ds).data =
    .ofExamples (((e.withBound k).kept hide ds).filterMap (((e.withBound k).produced hide ds)[·]?))

theorem numbersExamples (hdrop : e.config.removeDuplicates = true) (hide : Bool)
    (ds : List Dialogue) (k : Option Nat) : e.NumbersExamples hide ds k :=
  ⟨e.produced_withBound k hide ds, congrArg TrainingStates.ofExamples <|
    examples_data_eq (e := e.withBound k) hdrop hide ds⟩

/-- What stays under the bound `k` stays under `k'` too. -/
structure KeepsMore (e : Engine) (hide : Bool) (ds : List Dialogue) (k k' : Option Nat) : Prop where
  numbers : ((e.withBound k).kept hide ds).Sublist ((e.withBound k').kept hide ds)
  labels : ((e.withBound k).trainingStates hide ds).data.labels.Sublist
    ((e.withBound k').trainingStates hide ds).data.labels
  dialogueIds : ((e.withBound k).trainingStates hide ds).data.dialogueIds.Sublist
    ((e.withBound k').trainingStates hide ds).data.dialogueIds

/-- What a bound does not cut is read off by number. -/
theorem map_examples_data (hdrop : e.config.removeDuplicates = true) {α : Type}
    {f : TrainingExample → α} (hf : ∀ x, f (x.cut e.encoder.digest k) = f x) :
    ((e.withBound k).examples hide ds).data.map f = ((e.withBound k).kept hide ds).filterMap
      fun n => (((e.withBound none).produced hide ds)[n]?).map f := by
  rw [examples_data_eq (e := e.withBound k) hdrop, List.map_filterMap, produced_withBound]
  refine List.filterMap_congr fun n _ => ?_
  rw [List.getElem?_map, Option.map_map]
  exact congrArg (Option.map · _) (funext hf)

theorem keepsMore (hdrop : e.config.removeDuplicates = true) (hk : NoLonger k k')
    (h : TellsContentsApart e.encoder.digest ((e.withBound k').produced hide ds)) :
    e.KeepsMore hide ds k k' := by
  have hkept := kept_sublist hk h
  have hfield {α : Type} (f : TrainingExample → α)
      (hf : ∀ bound x, f (x.cut e.encoder.digest bound) = f x) :
      (((e.withBound k).examples hide ds).data.map f).Sublist
        (((e.withBound k').examples hide ds).data.map f) := by
    rw [map_examples_data hdrop (hf k), map_examples_data hdrop (hf k')]
    exact hkept.filterMap _
  exact ⟨hkept, hfield (·.label) fun _ _ => rfl, hfield (·.dialogueId) fun _ _ => rfl⟩

/-- Without a bound nothing is dropped but what repeats an earlier dialogue. -/
structure RepeatsEarlierOnly (e : Engine) (hide : Bool) (ds : List Dialogue) : Prop where
  dropped : ∀ n < (e.produced hide ds).length, n ∉ e.kept hide ds → e.RepeatsEarlier hide ds n
  single : ∀ d, ds = [d] → e.trainingStates hide ds = e.keepingRepeats.trainingStates hide ds

theorem repeatsEarlierOnly (hbound : e.config.maxHistory = none)
    (h : TellsContentsApart e.encoder.digest (e.produced hide ds)) :
    e.RepeatsEarlierOnly hide ds := by
  have hfaithful := faithful_produced h
  refine ⟨fun n hn => repeatsEarlier_of_not_mem_kept hbound hfaithful hn, ?_⟩
  rintro d rfl
  have hown : e.produced hide [d] = e.ownExamples hide d := by
    rw [produced_eq, List.flatMap_singleton]
  rw [hown] at hfaithful
  have hnodup := hfaithful.nodup_hashes (ownExamples_grow hbound hide d)
  have hdata : (e.examples hide [d]).data = (e.keepingRepeats.examples hide [d]).data := by
    rw [examples_data_eq_merge, merge, hown, deduplicate_of_nodup hnodup, ite_self, ← hown, produced]
  exact congrArg (Batch.mk · (e.examples hide [d]).failures) (congrArg _ hdata)

/-- Where repeated examples are dropped, a longer history keeps all that a shorter one keeps, and an
unbounded one drops nothing but what repeats an earlier dialogue. -/
theorem longer_keeps_more (e : Engine) (hdrop : e.config.removeDuplicates = true) (hide : Bool)
    (ds : List Dialogue) :
    (∀ k, e.NumbersExamples hide ds k) ∧
    (∀ k k', NoLonger k k' →
      TellsContentsApart e.encoder.digest ((e.withBound k').produced hide ds) →
        e.KeepsMore hide ds k k') ∧
    (TellsContentsApart e.encoder.digest ((e.withBound none).produced hide ds) →
      (e.withBound none).RepeatsEarlierOnly hide ds) :=
  ⟨numbersExamples hdrop hide ds, fun _ _ => keepsMore hdrop,
    repeatsEarlierOnly (e := e.withBound none) rfl⟩

/-- The third greeting in a row repeats the second where one state is shown. The greeting of the
other dialogue repeats the first under any bound. -/
theorem longer_keeps_more_greetings :
    let e : Engine := ⟨{ FeaturizerConfig.default with removeDuplicates := true },
      .ofNames ["listen", "greet"] "fallback", none, ⟨.ofDomain .empty, Blake3.hexDigest, none⟩,
      .inOrder⟩
    let greet : Event := .actionExecuted ⟨"greet", none, false, false⟩
    let ds : List Dialogue := [⟨"a", [greet, greet, greet]⟩, ⟨"b", [greet]⟩]
    TellsContentsApart e.encoder.digest ((e.withBound none).produced false ds) ∧
      e.KeepsMore false ds (some 1) none ∧
      2 ∉ (e.withBound (some 1)).kept false ds ∧ 3 ∉ (e.withBound none).kept false ds ∧
      (e.withBound none).RepeatsEarlier false ds 3 := by
  intro e greet ds
  have hapart : TellsContentsApart e.encoder.digest ((e.withBound none).produced false ds) := by
    let shown : State := State.empty.set .previousAction Attribute.actionName (.text "greet")
    let texts := [[State.empty], [State.empty, shown], [State.empty, shown, shown]].map
      fun w : Window => contentText w "greet"
    have htexts : ∀ x ∈ (e.withBound none).produced false ds,
        contentText x.window x.labelAction ∈ texts := by decide +kernel
    have hdigests : (texts.map Blake3.hexDigest).Nodup := by decide +kernel
    exact tellsContentsApart_of_texts htexts hdigests
  have hsecond : 2 ∉ (e.withBound (some 1)).kept false ds :=
    fun h => (mem_firstPositions.1 h).2 1 (by decide) rfl
  have hfirst : 3 ∉ (e.withBound none).kept false ds :=
    fun h => (mem_firstPositions.1 h).2 0 (by decide) rfl
  have hlt : 3 < ((e.withBound none).produced false ds).length := by decide +kernel
  obtain ⟨-, hkeeps, hrepeats⟩ := longer_keeps_more e rfl false ds
  exact ⟨hapart, hkeeps _ _ nofun hapart, hsecond, hfirst, (hrepeats hapart).dropped 3 hlt hfirst⟩

end Engine

end DialogueWindows
