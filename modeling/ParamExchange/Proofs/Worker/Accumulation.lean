/-
An accumulator over time. What it answers is told by its history alone: the gradients that were handed in for
a key so far, and those of them that came after the last flush of the key. A flush hands over their sum, from
the first gradient on if no sum of the key was handed over before, and from zeros otherwise; a gradient of
another shape than the first one for its key is refused, and the history goes on as if it had not come. The
induction is on the history from its end, and what carries it is that every sum that is held is the one that
the history tells.
-/
import Mathlib.Data.List.DropRight
import ParamExchange.Proofs.Key.Partners
import ParamExchange.Proofs.Worker.Sums

namespace ParamExchange

variable {α : Type} [Scalar α]

/-! ## Sums of elements -/

/-- Adds the elements of some gradients to some elements, one gradient after another. -/
def Tensor.addedTo (start : List α) (gradients : List (Tensor α)) : List α :=
  gradients.foldl (fun sum gradient => List.zipWith (fun x y => x + y) sum gradient.elements) start

theorem Tensor.addedTo_concat (start : List α) (gradients : List (Tensor α)) (gradient : Tensor α) :
    addedTo start (gradients ++ [gradient]) =
      List.zipWith (fun x y => x + y) (addedTo start gradients) gradient.elements := by
  rw [addedTo, List.foldl_append]
  rfl

namespace Accumulator

/-! ## Operations -/

/-- What is asked of an accumulator. -/
inductive Operation (α : Type)
  | accumulate (key : Key) (gradient : Tensor α)
  | flush (key : Key)

/-- What it answers: that a gradient was taken in or why not, or a sum if there is one. -/
inductive Answer (α : Type)
  | accumulated (result : Except WorkerError Unit)
  | flushed (sum : Option (Tensor α))

namespace Operation

omit [Scalar α]

/-- The key of an operation. -/
def key : Operation α → Key
  | accumulate key _ => key
  | flush key => key

/-- Whether an operation is a flush of a key. -/
def flushes (key : Key) : Operation α → Bool
  | accumulate _ _ => false
  | flush other => other = key

/-- The gradient that an operation hands in for a key, if it does. -/
def gradient? (key : Key) : Operation α → Option (Tensor α)
  | accumulate other gradient => if other = key then some gradient else none
  | flush _ => none

end Operation

/-- Does what is asked. -/
def operate (acc : Accumulator α) : Operation α → Answer α × Accumulator α
  | .accumulate key gradient =>
    match acc.accumulate key gradient with
    | .ok after => (.accumulated (.ok ()), after)
    | .error e => (.accumulated (.error e), acc)
  | .flush key => (.flushed (acc.flush key).1, (acc.flush key).2)

/-- Does what is asked, one operation after another: each of them with its answer, and the accumulator after
them. -/
def operateAll (acc : Accumulator α) : List (Operation α) → List (Operation α × Answer α) × Accumulator α
  | [] => ([], acc)
  | operation :: rest =>
    let (answer, next) := acc.operate operation
    let (answers, after) := next.operateAll rest
    ((operation, answer) :: answers, after)

/-! ## Histories -/

section History

omit [Scalar α]

variable (key : Key) (history : List (Operation α))

/-- The gradients that were handed in for a key. -/
def handedIn : List (Tensor α) := history.filterMap (Operation.gradient? key)

/-- A history up to the last flush of a key. -/
def untilFlush : List (Operation α) := history.rdropWhile fun operation => !operation.flushes key

/-- A history after the last flush of a key, which is all of it if there was none. -/
def sinceFlush : List (Operation α) := history.rtakeWhile fun operation => !operation.flushes key

end History

/-- The gradients of a shape. -/
def ofShape (shape : List Nat) (gradients : List (Tensor α)) : List (Tensor α) :=
  gradients.filter fun gradient => gradient.shape = shape

/-- `SumOf key history sum`: what was added up for a key and not handed over yet. Gradients of another shape
than the first one were refused. -/
inductive SumOf (key : Key) (history : List (Operation α)) (sum : Tensor α) : Prop
  | untaken {first : Tensor α} {rest : List (Tensor α)} :
    handedIn key history = first :: rest → handedIn key (untilFlush key history) = [] →
    sum.shape = first.shape →
    sum.elements = Tensor.addedTo first.elements (ofShape first.shape rest) → SumOf key history sum
  | taken {first : Tensor α} {rest : List (Tensor α)} :
    handedIn key history = first :: rest → handedIn key (untilFlush key history) ≠ [] →
    sum.shape = first.shape →
    sum.elements = Tensor.addedTo (Tensor.zeros first.shape).elements
      (ofShape first.shape (handedIn key (sinceFlush key history))) → SumOf key history sum

/-- `Due history operation answer`: what is answered to an operation after a history. -/
inductive Due (history : List (Operation α)) : Operation α → Answer α → Prop
  | first {key : Key} {gradient : Tensor α} :
    handedIn key history = [] → Due history (.accumulate key gradient) (.accumulated (.ok ()))
  | next {key : Key} {gradient first : Tensor α} {rest : List (Tensor α)} :
    handedIn key history = first :: rest → gradient.shape = first.shape →
    Due history (.accumulate key gradient) (.accumulated (.ok ()))
  | refused {key : Key} {gradient first : Tensor α} {rest : List (Tensor α)} :
    handedIn key history = first :: rest → gradient.shape ≠ first.shape →
    Due history (.accumulate key gradient)
      (.accumulated (.error (.shapeMismatch key.name first.shape gradient.shape)))
  | nothing {key : Key} : handedIn key history = [] → Due history (.flush key) (.flushed none)
  | sum {key : Key} {sum : Tensor α} : SumOf key history sum → Due history (.flush key) (.flushed (some sum))

/-! ## One more operation -/

section Snoc

omit [Scalar α]

variable {key : Key} {history : List (Operation α)} {operation : Operation α} {gradient : Tensor α}

theorem handedIn_concat (key : Key) (history : List (Operation α)) (operation : Operation α) :
    handedIn key (history ++ [operation]) = handedIn key history ++ (operation.gradient? key).toList := by
  rw [handedIn, List.filterMap_append, handedIn]
  cases h : operation.gradient? key <;> simp [h]

theorem handedIn_accumulate (key : Key) (history : List (Operation α)) (gradient : Tensor α) :
    handedIn key (history ++ [.accumulate key gradient]) = handedIn key history ++ [gradient] := by
  rw [handedIn_concat, Operation.gradient?, if_pos rfl, Option.toList_some]

theorem handedIn_accumulate_cons {first : Tensor α} {rest : List (Tensor α)} (h : handedIn key history = first :: rest)
    (gradient : Tensor α) :
    handedIn key (history ++ [.accumulate key gradient]) = first :: (rest ++ [gradient]) := by
  rw [handedIn_accumulate, h, List.cons_append]

theorem gradient?_of_ne (h : operation.key ≠ key) : operation.gradient? key = none := by
  cases operation with
  | accumulate other gradient => exact if_neg h
  | flush other => rfl

theorem flushes_of_ne (h : operation.key ≠ key) : operation.flushes key = false := by
  cases operation with
  | accumulate other gradient => rfl
  | flush other => exact decide_eq_false h

theorem untilFlush_concat (h : operation.flushes key = false) :
    untilFlush key (history ++ [operation]) = untilFlush key history :=
  List.rdropWhile_concat_pos _ _ _ (by simp [h])

theorem sinceFlush_concat (h : operation.flushes key = false) :
    sinceFlush key (history ++ [operation]) = sinceFlush key history ++ [operation] :=
  List.rtakeWhile_concat_pos _ _ _ (by simp [h])

theorem untilFlush_flush : untilFlush key (history ++ [.flush key]) = history ++ [.flush key] :=
  List.rdropWhile_concat_neg _ _ _ (by simp [Operation.flushes])

theorem sinceFlush_flush : sinceFlush key (history ++ [.flush key]) = [] :=
  List.rtakeWhile_concat_neg _ _ _ (by simp [Operation.flushes])

/-- What was handed in before the last flush comes first. -/
theorem handedIn_untilFlush_append (key : Key) (history : List (Operation α)) :
    handedIn key (untilFlush key history) ++ handedIn key (sinceFlush key history) = handedIn key history := by
  rw [handedIn, handedIn, ← List.filterMap_append, untilFlush, sinceFlush, List.rdropWhile_append_rtakeWhile]
  rfl

theorem untilFlush_of_handedIn_nil (h : handedIn key history = []) : handedIn key (untilFlush key history) = [] :=
  List.append_eq_nil_iff.1 ((handedIn_untilFlush_append key history).trans h) |>.1

end Snoc

variable {key : Key} {history : List (Operation α)} {operation : Operation α} {sum gradient : Tensor α}

/-- What is held for a key is not touched by operations on other keys. -/
theorem SumOf.concat_of_ne (h : SumOf key history sum) (hne : operation.key ≠ key) :
    SumOf key (history ++ [operation]) sum := by
  have hflush := flushes_of_ne hne
  have hhanded : handedIn key (history ++ [operation]) = handedIn key history := by
    simp [handedIn_concat, gradient?_of_ne hne]
  cases h with
  | untaken hfirst hbefore hshape helements =>
    exact .untaken (hhanded.trans hfirst) (by rwa [untilFlush_concat hflush]) hshape helements
  | taken hfirst hbefore hshape helements =>
    refine .taken (hhanded.trans hfirst) (by rwa [untilFlush_concat hflush]) hshape ?_
    rwa [sinceFlush_concat hflush, handedIn_concat, gradient?_of_ne hne, Option.toList_none, List.append_nil]

/-- A flush leaves zeros of the shape of the first gradient. -/
theorem SumOf.concat_flush (h : SumOf key history sum) :
    SumOf key (history ++ [.flush key]) (Tensor.zeros sum.shape) := by
  have hhanded : handedIn key (history ++ [.flush key]) = handedIn key history := by
    simp [handedIn_concat, Operation.gradient?]
  have hzeros : ∀ {first : Tensor α} {rest : List (Tensor α)}, handedIn key history = first :: rest →
      sum.shape = first.shape → SumOf key (history ++ [.flush key]) (Tensor.zeros sum.shape) := by
    intro first rest hfirst hshape
    refine .taken (hhanded.trans hfirst) ?_ (by rw [hshape]; rfl) ?_
    · rw [untilFlush_flush, hhanded, hfirst]
      exact List.cons_ne_nil _ _
    · rw [sinceFlush_flush, hshape]
      rfl
  cases h with
  | untaken hfirst _ hshape _ => exact hzeros hfirst hshape
  | taken hfirst _ hshape _ => exact hzeros hfirst hshape

omit [Scalar α] in
theorem ofShape_concat (shape : List Nat) (gradients : List (Tensor α)) (gradient : Tensor α) :
    ofShape shape (gradients ++ [gradient]) =
      if gradient.shape = shape then ofShape shape gradients ++ [gradient] else ofShape shape gradients := by
  rw [ofShape, List.filter_append]
  split <;> rename_i h <;> simp [ofShape, h]

/-- The first gradient for a key is its sum. -/
theorem SumOf.first (h : handedIn key history = []) (gradient : Tensor α) :
    SumOf key (history ++ [.accumulate key gradient]) gradient := by
  have hhanded : handedIn key (history ++ [.accumulate key gradient]) = [gradient] := by
    rw [handedIn_accumulate, h, List.nil_append]
  refine .untaken hhanded ?_ rfl rfl
  rw [untilFlush_concat rfl]
  exact untilFlush_of_handedIn_nil h

/-- A gradient that was taken in comes last in the sum. -/
theorem SumOf.concat_accumulate (h : SumOf key history sum) {next : Tensor α} (hnext : sum.add? gradient = some next) :
    SumOf key (history ++ [.accumulate key gradient]) next := by
  obtain ⟨hgradient, hsame, -, -⟩ := Tensor.of_zip? hnext
  have hadded : next.elements = List.zipWith (fun x y => x + y) sum.elements gradient.elements :=
    Tensor.elements_zip? hnext
  cases h with
  | untaken hfirst hbefore hshape helements =>
    refine .untaken (handedIn_accumulate_cons hfirst gradient) (by rwa [untilFlush_concat rfl]) (hsame.trans hshape) ?_
    rw [ofShape_concat, if_pos (hgradient.trans hshape), Tensor.addedTo_concat, ← helements, hadded]
  | taken hfirst hbefore hshape helements =>
    refine .taken (handedIn_accumulate_cons hfirst gradient) (by rwa [untilFlush_concat rfl]) (hsame.trans hshape) ?_
    rw [sinceFlush_concat rfl, handedIn_accumulate, ofShape_concat, if_pos (hgradient.trans hshape),
      Tensor.addedTo_concat, ← helements, hadded]

/-- A gradient that was refused does not count. -/
theorem SumOf.concat_refused (h : SumOf key history sum) (hgradient : gradient.shape ≠ sum.shape) :
    SumOf key (history ++ [.accumulate key gradient]) sum := by
  cases h with
  | untaken hfirst hbefore hshape helements =>
    refine .untaken (handedIn_accumulate_cons hfirst gradient) (by rwa [untilFlush_concat rfl]) hshape ?_
    rwa [ofShape_concat, if_neg fun heq => hgradient (heq.trans hshape.symm)]
  | taken hfirst hbefore hshape helements =>
    refine .taken (handedIn_accumulate_cons hfirst gradient) (by rwa [untilFlush_concat rfl]) hshape ?_
    rwa [sinceFlush_concat rfl, handedIn_accumulate, ofShape_concat,
      if_neg fun heq => hgradient (heq.trans hshape.symm)]

/-- The sum of a key has the shape of the first gradient for it. -/
theorem SumOf.exists_first (h : SumOf key history sum) :
    ∃ first rest, handedIn key history = first :: rest ∧ sum.shape = first.shape := by
  cases h with
  | untaken hfirst _ hshape _ => exact ⟨_, _, hfirst, hshape⟩
  | taken hfirst _ hshape _ => exact ⟨_, _, hfirst, hshape⟩

/-! ## What an operation does -/

section Operate

variable {acc : Accumulator α} {key : Key} {gradient sum : Tensor α}

theorem operate_first (h : acc.sum? key = none) :
    acc.operate (.accumulate key gradient) = (.accumulated (.ok ()), acc.put key gradient) := by
  simp only [operate, accumulate, h]

theorem operate_more {next : Tensor α} (h : acc.sum? key = some sum) (hnext : sum.add? gradient = some next) :
    acc.operate (.accumulate key gradient) = (.accumulated (.ok ()), acc.put key next) := by
  simp only [operate, accumulate, h, hnext]

theorem operate_refused (h : acc.sum? key = some sum) (hgradient : gradient.shape ≠ sum.shape) :
    acc.operate (.accumulate key gradient) =
      (.accumulated (.error (.shapeMismatch key.name sum.shape gradient.shape)), acc) := by
  have hnone : sum.add? gradient = none := Tensor.zip?_of_shape_ne _ hgradient
  simp only [operate, accumulate, h, hnone]

theorem operate_nothing (h : acc.sum? key = none) : acc.operate (.flush key) = (.flushed none, acc) := by
  simp only [operate, flush, h]

theorem operate_taken (h : acc.sum? key = some sum) :
    acc.operate (.flush key) = (.flushed (some sum), acc.put key (Tensor.zeros sum.shape)) := by
  simp only [operate, flush, h]

/-- Accumulators that hold the same for the key of an operation answer it alike, and leave everything as it was
or put the same under this key. -/
theorem operate_cases (acc : Accumulator α) (operation : Operation α) :
    ∃ answer, (∀ other : Accumulator α, other.sum? operation.key = acc.sum? operation.key →
        other.operate operation = (answer, other)) ∨
      ∃ sum, ∀ other : Accumulator α, other.sum? operation.key = acc.sum? operation.key →
        other.operate operation = (answer, other.put operation.key sum) := by
  cases operation with
  | accumulate key gradient =>
    rcases hheld : acc.sum? key with _ | sum
    · exact ⟨_, .inr ⟨gradient, fun other hother => operate_first (hother.trans hheld)⟩⟩
    · by_cases hgradient : gradient.shape = sum.shape
      · obtain ⟨next, hnext⟩ := Tensor.exists_zip? (fun x y => x + y) hgradient
        exact ⟨_, .inr ⟨next, fun other hother => operate_more (hother.trans hheld) hnext⟩⟩
      · exact ⟨_, .inl fun other hother => operate_refused (hother.trans hheld) hgradient⟩
  | flush key =>
    rcases hheld : acc.sum? key with _ | sum
    · exact ⟨_, .inl fun other hother => operate_nothing (hother.trans hheld)⟩
    · exact ⟨_, .inr ⟨_, fun other hother => operate_taken (hother.trans hheld)⟩⟩

end Operate

/-! ## Runs -/

/-- An accumulator holds what its history tells, for each key. -/
def Follows (history : List (Operation α)) (acc : Accumulator α) : Prop :=
  ∀ key, handedIn key history = [] ∧ acc.sum? key = none ∨
    ∃ sum, acc.sum? key = some sum ∧ SumOf key history sum

theorem follows_empty : (empty : Accumulator α).Follows [] := fun _ => .inl ⟨rfl, rfl⟩

variable {acc : Accumulator α}

/-- After an operation on a key, the other keys are as they were. -/
theorem Follows.update (h : acc.Follows history) {after : Accumulator α}
    (hothers : ∀ other, other ≠ operation.key → after.sum? other = acc.sum? other)
    (hown : ∃ sum, after.sum? operation.key = some sum ∧ SumOf operation.key (history ++ [operation]) sum) :
    after.Follows (history ++ [operation]) := by
  intro key
  by_cases hkey : key = operation.key
  · exact .inr (hkey ▸ hown)
  · rw [hothers key hkey]
    rcases h key with ⟨hnone, hheld⟩ | ⟨sum, hheld, hsum⟩
    · refine .inl ⟨?_, hheld⟩
      rw [handedIn_concat, hnone, gradient?_of_ne (Ne.symm hkey)]
      rfl
    · exact .inr ⟨sum, hheld, hsum.concat_of_ne (Ne.symm hkey)⟩

/-- Every operation is answered as its history says, and leaves what the longer history tells. -/
theorem Follows.operate (h : acc.Follows history) (operation : Operation α) :
    Due history operation (acc.operate operation).1 ∧ (acc.operate operation).2.Follows (history ++ [operation]) := by
  have hothers : ∀ key sum other, other ≠ key → (acc.put key sum).sum? other = acc.sum? other := by
    intro key sum other hne
    rw [sum?_put, if_neg hne]
  have hown : ∀ key sum, (acc.put key sum).sum? key = some sum := by
    intro key sum
    rw [sum?_put, if_pos rfl]
  cases operation with
  | accumulate key gradient =>
    rcases h key with ⟨hnone, hheld⟩ | ⟨sum, hheld, hsum⟩
    · rw [operate_first hheld]
      exact ⟨.first hnone, h.update (hothers key gradient) ⟨gradient, hown key gradient, .first hnone gradient⟩⟩
    · obtain ⟨first, rest, hfirst, hshape⟩ := hsum.exists_first
      by_cases hgradient : gradient.shape = sum.shape
      · obtain ⟨next, hnext⟩ := Tensor.exists_zip? (fun x y => x + y) hgradient
        rw [operate_more hheld hnext]
        exact ⟨.next hfirst (hgradient.trans hshape),
          h.update (hothers key next) ⟨next, hown key next, hsum.concat_accumulate hnext⟩⟩
      · rw [operate_refused hheld hgradient, hshape]
        exact ⟨.refused hfirst (hshape ▸ hgradient),
          h.update (fun _ _ => rfl) ⟨sum, hheld, hsum.concat_refused hgradient⟩⟩
  | flush key =>
    rcases h key with ⟨hnone, hheld⟩ | ⟨sum, hheld, hsum⟩
    · rw [operate_nothing hheld]
      refine ⟨.nothing hnone, fun other => ?_⟩
      rcases h other with ⟨hother, hsame⟩ | ⟨sum, hsame, hsum⟩
      · refine .inl ⟨?_, hsame⟩
        rw [handedIn_concat, hother]
        rfl
      · refine .inr ⟨sum, hsame, hsum.concat_of_ne fun heq => ?_⟩
        rw [← heq] at hsame
        exact Option.some_ne_none sum (hsame.symm.trans hheld)
    · rw [operate_taken hheld]
      exact ⟨.sum hsum, h.update (hothers key _) ⟨_, hown key _, hsum.concat_flush⟩⟩

/-- Every operation of a run is answered as the history up to it says. -/
theorem Follows.operateAll (h : acc.Follows history) (operations : List (Operation α)) :
    ∀ i operation, operations[i]? = some operation → ∃ answer,
      (acc.operateAll operations).1[i]? = some (operation, answer) ∧
      Due (history ++ operations.take i) operation answer := by
  induction operations generalizing history acc with
  | nil => exact fun i operation hi => by simp at hi
  | cons first rest ih =>
    obtain ⟨hdue, hnext⟩ := h.operate first
    intro i operation hi
    cases i with
    | zero =>
      cases hi
      exact ⟨_, rfl, by rwa [List.take_zero, List.append_nil]⟩
    | succ i =>
      obtain ⟨answer, hanswer, hlater⟩ := ih hnext i operation hi
      exact ⟨answer, hanswer, by rwa [List.append_assoc, List.singleton_append] at hlater⟩

/-! ## Operations that leave no trace -/

theorem operate_congr {other : Accumulator α} (h : acc.sum? operation.key = other.sum? operation.key) :
    (acc.operate operation).1 = (other.operate operation).1 ∧
      (acc.operate operation).2.sum? operation.key = (other.operate operation).2.sum? operation.key := by
  obtain ⟨answer, hsame | ⟨sum, hput⟩⟩ := acc.operate_cases operation
  · rw [hsame acc rfl, hsame other h.symm]
    exact ⟨rfl, h⟩
  · rw [hput acc rfl, hput other h.symm]
    exact ⟨rfl, by rw [sum?_put, sum?_put, if_pos rfl, if_pos rfl]⟩

/-- An operation on another key is not seen. -/
theorem operate_of_ne (h : operation.key ≠ key) : (acc.operate operation).2.sum? key = acc.sum? key := by
  obtain ⟨answer, hsame | ⟨sum, hput⟩⟩ := acc.operate_cases operation
  · rw [hsame acc rfl]
  · rw [hput acc rfl, sum?_put, if_neg (Ne.symm h)]

theorem operateAll_cons (acc : Accumulator α) (operation : Operation α) (rest : List (Operation α)) :
    acc.operateAll (operation :: rest) =
      ((operation, (acc.operate operation).1) :: ((acc.operate operation).2.operateAll rest).1,
        ((acc.operate operation).2.operateAll rest).2) := rfl

/-- Operations on other keys can be left out. -/
theorem operateAll_filter {other : Accumulator α} (h : acc.sum? key = other.sum? key)
    (operations : List (Operation α)) :
    (acc.operateAll operations).1.filter (·.1.key = key) =
      (other.operateAll (operations.filter (·.key = key))).1 := by
  induction operations generalizing acc other with
  | nil => rfl
  | cons first rest ih =>
    by_cases hkey : first.key = key
    · subst hkey
      obtain ⟨hanswer, hnext⟩ := operate_congr h
      rw [operateAll_cons, List.filter_cons_of_pos (by simp), List.filter_cons_of_pos (by simp), operateAll_cons,
        hanswer, ih hnext]
    · rw [operateAll_cons, List.filter_cons_of_neg (by simpa using hkey),
        List.filter_cons_of_neg (by simpa using hkey), ih ((operate_of_ne hkey).trans h)]

/-- A gradient that is refused leaves the accumulator as it is. -/
theorem operate_error {e : WorkerError}
    (h : (acc.operate (.accumulate key gradient)).1 = .accumulated (.error e)) :
    (acc.operate (.accumulate key gradient)).2 = acc := by
  simp only [operate] at h ⊢
  rcases hacc : acc.accumulate key gradient with e | after
  · rfl
  · simp [hacc] at h

/-- A refused gradient can be left out. -/
theorem operateAll_eraseIdx {operations : List (Operation α)} {i : Nat} {e : WorkerError}
    (h : (acc.operateAll operations).1[i]? = some (.accumulate key gradient, .accumulated (.error e))) :
    acc.operateAll (operations.eraseIdx i) =
      ((acc.operateAll operations).1.eraseIdx i, (acc.operateAll operations).2) := by
  induction operations generalizing acc i with
  | nil => simp [operateAll] at h
  | cons first rest ih =>
    cases i with
    | zero =>
      simp only [operateAll_cons, List.getElem?_cons_zero, Option.some.injEq, Prod.mk.injEq] at h
      obtain ⟨rfl, hanswer⟩ := h
      have hrun := acc.operateAll_cons (.accumulate key gradient) rest
      rw [operate_error hanswer] at hrun
      rw [hrun]
      rfl
    | succ i =>
      rw [operateAll_cons] at h ⊢
      rw [List.eraseIdx_cons_succ, operateAll_cons, ih h]
      rfl

/-! ## What a run answers -/

theorem Due.flushed_none_iff {sum : Option (Tensor α)} (h : Due history (.flush key) (.flushed sum)) :
    sum = none ↔ handedIn key history = [] := by
  cases h with
  | nothing hnone => exact iff_of_true rfl hnone
  | sum hsum =>
    obtain ⟨first, rest, hfirst, -⟩ := hsum.exists_first
    exact iff_of_false (Option.some_ne_none _) (by rw [hfirst]; exact List.cons_ne_nil _ _)

theorem Due.error_iff {result : Except WorkerError Unit}
    (h : Due history (.accumulate key gradient) (.accumulated result)) :
    result ≠ .ok () ↔ ∃ first ∈ (handedIn key history).head?, gradient.shape ≠ first.shape := by
  cases h with
  | first hnone => simp [hnone]
  | next hfirst hshape => simp [hfirst, hshape]
  | refused hfirst hshape => simp [hfirst, hshape]

theorem map_fst_operateAll (acc : Accumulator α) (operations : List (Operation α)) :
    (acc.operateAll operations).1.map Prod.fst = operations := by
  induction operations generalizing acc with
  | nil => rfl
  | cons first rest ih => rw [operateAll_cons, List.map_cons, ih]

theorem due_of_getElem? {operations : List (Operation α)} {i : Nat} {answer : Answer α}
    (h : (empty.operateAll operations).1[i]? = some (operation, answer)) :
    Due (operations.take i) operation answer := by
  have hoperation : operations[i]? = some operation := by
    have hmap := congrArg (·[i]?) (map_fst_operateAll empty operations)
    simp only [List.getElem?_map, h, Option.map_some] at hmap
    exact hmap.symm
  obtain ⟨given, hgiven, hdue⟩ := follows_empty.operateAll operations i operation hoperation
  rw [h] at hgiven
  cases hgiven
  exact hdue

/-- The answers of an accumulator are told by the operations before them. A flush hands over nothing exactly if
no gradient was handed in for its key, and otherwise the sum of the gradients of the shape of the first one that
came since the last flush of the key: from the first one on if there was none before that flush, and from zeros
if there was. A gradient is refused exactly if its shape is not that of the first one for its key, and the run
without it gives the other answers and the same accumulator. The answers for a key are those of the run without
the operations on other keys, and every name that parses is a key of its own. -/
theorem operateAll_due (operations : List (Operation α)) :
    let run := (empty : Accumulator α).operateAll operations
    (∀ i operation, operations[i]? = some operation → ∃ answer, run.1[i]? = some (operation, answer) ∧
      Due (operations.take i) operation answer) ∧
    (∀ i key sum, run.1[i]? = some (.flush key, .flushed sum) →
      (sum = none ↔ handedIn key (operations.take i) = [])) ∧
    (∀ i key gradient result, run.1[i]? = some (.accumulate key gradient, .accumulated result) →
      ((result ≠ .ok () ↔ ∃ first ∈ (handedIn key (operations.take i)).head?, gradient.shape ≠ first.shape) ∧
        (result ≠ .ok () → empty.operateAll (operations.eraseIdx i) = (run.1.eraseIdx i, run.2)))) ∧
    (∀ key, run.1.filter (·.1.key = key) = (empty.operateAll (operations.filter (·.key = key))).1) ∧
    ∀ name other a b, Key.ofName name = .ok a → Key.ofName other = .ok b → name ≠ other → a ≠ b := by
  intro run
  refine ⟨fun i operation hi => ?_, fun i key sum hi => (due_of_getElem? hi).flushed_none_iff,
    fun i key gradient result hi => ⟨(due_of_getElem? hi).error_iff, fun herror => ?_⟩,
    fun key => operateAll_filter rfl operations, ?_⟩
  · exact follows_empty.operateAll operations i operation hi
  · rcases result with e | ⟨⟩
    · exact operateAll_eraseIdx hi
    · exact absurd rfl herror
  · rintro name other a b hname hother hne rfl
    exact hne ((Key.name_of_ofName hname).symm.trans (Key.name_of_ofName hother))

/-- A flush that finds nothing leaves no zeros behind: what comes after it is summed up from the first gradient
on, so a negative zero stays one. Added to zeros it would not. -/
theorem operateAll_negative_zero :
    let key : Key := ⟨"w_0", .weight, 0⟩
    let gradient : Tensor Single := .ofList [1] [⟨0x80000000⟩] rfl
    (∃ sum, ((empty.operateAll [.flush key, .accumulate key gradient, .flush key]).1.map Prod.snd) =
        [.flushed none, .accumulated (.ok ()), .flushed (some sum)] ∧ sum.elements = [⟨0x80000000⟩]) ∧
      Tensor.addedTo (Tensor.zeros [1]).elements [gradient] = [⟨0⟩] ∧
      (⟨0x80000000⟩ : Single) ≠ ⟨0⟩ :=
  ⟨⟨_, rfl, rfl⟩, by decide, by decide⟩

end Accumulator

end ParamExchange
