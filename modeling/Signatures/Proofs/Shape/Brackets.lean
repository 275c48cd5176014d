import Signatures.Proofs.Shape.Viable

/-!
# Brackets and open lists

A reading has as many open lists as opening brackets have been read more than closing ones. So where reading
stops at the end of the tokens, either nothing has been read or a bracket is missing; and where it stops
before it, the end could have come exactly if the tokens so far are a signature.
-/

namespace Signatures

namespace Reading

variable {reading next last : Reading} {token : Token} {ts : List Token}

theorem Step.length_openLists (h : Step reading token next) :
    next.openLists.length + [token].count .gt = reading.openLists.length + [token].count .lt := by
  cases h with
  | atom lists a => cases a <;> rfl
  | mark lists a => rfl
  | opening lists a nullable => rfl
  | comma list lists item => rfl
  | closing list lists item => rfl

/-- The open lists are counted by the brackets of the tokens read. -/
theorem length_openLists_of_run? (h : reading.run? ts = some last) :
    last.openLists.length + ts.count .gt = reading.openLists.length + ts.count .lt := by
  induction ts generalizing reading with
  | nil =>
    cases h
    rfl
  | cons token ts ih =>
    rcases Option.bind_eq_some_iff.mp h with ⟨next, hnext, hrun⟩
    have hstep := (step?_eq_some_iff.mp hnext).length_openLists
    have hrest := ih hrun
    rw [← List.singleton_append, List.count_append, List.count_append]
    omega

/-- Where the tokens read are no signature and no number with a mark, nothing has been read or a closing
bracket is missing. -/
theorem eq_nil_or_count_lt (hrun : start.run? ts = some last) (hmarked : last.startsMarkedNumber = false)
    (hshape : last.shape? = none) : ts = [] ∨ ts.count .gt < ts.count .lt := by
  have hcount := length_openLists_of_run? hrun
  obtain ⟨lists, item⟩ := last
  cases lists with
  | cons list lists =>
    right
    simp only [start, List.length_cons, List.length_nil] at hcount
    omega
  | nil =>
    cases item with
    | none => exact .inl (tokens_of_run? hrun).symm
    | some item =>
      have hfinish : Expectation.finish ∈ expected ⟨[], some item⟩ := by simp [expected]
      rcases step_or_shape?_of_mem_expected hmarked hfinish with ⟨token, next, htoken, -⟩ | ⟨-, shape, hsome⟩
      · cases token <;> cases htoken
      · rw [hshape] at hsome
        cases hsome

end Reading

namespace Grammar

open Reading

variable {ts : List Token}

theorem BreaksAt.eq {i j : Nat} (h : BreaksAt ts i) (h' : BreaksAt ts j) : i = j := by
  have hle {i j : Nat} (h : BreaksAt ts i) (h' : BreaksAt ts j) : j ≤ i := by
    refine Nat.le_of_not_lt fun hlt => ?_
    exact h.not_viable (Nat.lt_of_lt_of_le hlt h'.le_length) (h'.viable (i + 1) hlt)
  exact Nat.le_antisymm (hle h' h) (hle h h')

theorem follows_finish_iff : Follows ts .finish ↔ IsSignature ts := by
  constructor
  · intro h
    generalize he : Expectation.finish = e at h
    cases h with
    | token token hviable => cases token <;> cases he
    | finish hsignature => exact hsignature
  · exact .finish

end Grammar

end Signatures
