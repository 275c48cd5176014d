import Signatures.Proofs.Shape.Grammar

/-!
# Readings and their tokens

A reading stands for the tokens read so far: no step drops, adds or reorders one, and the tokens of a
shape bring back the shape wherever they are read. So tokens are read completely exactly when they are
those of a shape that may stand alone.
-/

namespace Signatures

theorem Atom.ofToken?_eq_some_iff {token : Token} {a : Atom} :
    Atom.ofToken? token = some a ↔ token = a.token := by
  constructor
  · intro h
    cases token <;> cases h <;> rfl
  · rintro rfl
    exact Atom.ofToken?_token a

def OpenList.tokens (list : OpenList) : List Token :=
  list.atom.token :: (markTokens list.nullable ++
    .lt :: list.earlier.reverse.flatMap fun shape => shape.tokens ++ [.comma])

namespace Reading

open Shape

def itemTokens : Option Shape → List Token
  | none => []
  | some item => item.tokens

/-- The tokens of a reading: the open lists, outermost first, and the item read last. -/
def tokens (reading : Reading) : List Token :=
  reading.openLists.reverse.flatMap OpenList.tokens ++ itemTokens reading.item

@[simp]
theorem tokens_start : start.tokens = [] := rfl

/-- What one token does to a reading. -/
inductive Step : Reading → Token → Reading → Prop where
  | atom (lists : List OpenList) (a : Atom) : Step ⟨lists, none⟩ a.token ⟨lists, some ⟨a, false, []⟩⟩
  | mark (lists : List OpenList) (a : Atom) :
      Step ⟨lists, some ⟨a, false, []⟩⟩ .question ⟨lists, some ⟨a, true, []⟩⟩
  | opening (lists : List OpenList) (a : Atom) (nullable : Bool) :
      Step ⟨lists, some ⟨a, nullable, []⟩⟩ .lt ⟨⟨a, nullable, []⟩ :: lists, none⟩
  | comma (list : OpenList) (lists : List OpenList) (item : Shape) :
      Step ⟨list :: lists, some item⟩ .comma
        ⟨⟨list.atom, list.nullable, item :: list.earlier⟩ :: lists, none⟩
  | closing (list : OpenList) (lists : List OpenList) (item : Shape) :
      Step ⟨list :: lists, some item⟩ .gt
        ⟨lists, some ⟨list.atom, list.nullable, (item :: list.earlier).reverse⟩⟩

theorem step?_eq_some_iff {reading next : Reading} {token : Token} :
    reading.step? token = some next ↔ Step reading token next := by
  constructor
  · intro h
    obtain ⟨lists, item⟩ := reading
    unfold step? at h
    split at h
    · next hitem =>
      obtain ⟨a, ha, rfl⟩ := Option.map_eq_some_iff.mp h
      rw [Atom.ofToken?_eq_some_iff.mp ha, show item = none from hitem]
      exact .atom lists a
    · next a hitem =>
      cases h
      rw [show item = some ⟨a, false, []⟩ from hitem]
      exact .mark lists a
    · next a nullable hitem =>
      cases h
      rw [show item = some ⟨a, nullable, []⟩ from hitem]
      exact .opening lists a nullable
    · next last list outer hitem hlists =>
      cases h
      rw [show item = some last from hitem, show lists = list :: outer from hlists]
      exact .comma list outer last
    · next last list outer hitem hlists =>
      cases h
      rw [show item = some last from hitem, show lists = list :: outer from hlists]
      exact .closing list outer last
    · cases h
  · intro h
    cases h <;> simp [step?]

/-- A step keeps all tokens read before and adds the one it reads. -/
theorem Step.tokens_eq {reading next : Reading} {token : Token} (h : Step reading token next) :
    next.tokens = reading.tokens ++ [token] := by
  cases h with
  | atom lists a => simp [tokens, itemTokens, Shape.tokens, listTokens, markTokens]
  | mark lists a => simp [tokens, itemTokens, Shape.tokens, listTokens, markTokens]
  | opening lists a nullable =>
    simp [tokens, itemTokens, OpenList.tokens, Shape.tokens, listTokens]
  | comma list lists item => simp [tokens, itemTokens, OpenList.tokens]
  | closing list lists item =>
    simp only [tokens, itemTokens, Shape.tokens, List.reverse_cons, listTokens_concat]
    simp [OpenList.tokens]

def run? (reading : Reading) : List Token → Option Reading
  | [] => some reading
  | token :: tokens => (reading.step? token).bind fun next => next.run? tokens

@[simp]
theorem run?_nil (reading : Reading) : reading.run? [] = some reading := rfl

@[simp]
theorem run?_append (reading : Reading) (before after : List Token) :
    reading.run? (before ++ after) = (reading.run? before).bind fun next => next.run? after := by
  induction before generalizing reading with
  | nil => rfl
  | cons token before ih =>
    cases hstep : reading.step? token with
    | none => simp [run?, hstep]
    | some next => simp [run?, hstep, ih]

theorem run?_cons_of_step {reading next : Reading} {token : Token} (h : Step reading token next)
    (tokens : List Token) : reading.run? (token :: tokens) = next.run? tokens := by
  rw [run?, step?_eq_some_iff.mpr h, Option.bind_some]

theorem tokens_of_run? {reading next : Reading} {ts : List Token} (h : reading.run? ts = some next) :
    next.tokens = reading.tokens ++ ts := by
  induction ts generalizing reading with
  | nil => cases h; simp
  | cons token ts ih =>
    obtain ⟨middle, hstep, hrun⟩ := Option.bind_eq_some_iff.mp h
    rw [ih hrun, (step?_eq_some_iff.mp hstep).tokens_eq]
    simp

theorem run?_markTokens (lists : List OpenList) (a : Atom) (nullable : Bool) :
    run? ⟨lists, some ⟨a, false, []⟩⟩ (markTokens nullable) = some ⟨lists, some ⟨a, nullable, []⟩⟩ := by
  cases nullable with
  | false => rfl
  | true => exact run?_cons_of_step (.mark lists a) []

mutual

/-- The tokens of a shape are read as that shape wherever an argument can stand. -/
theorem run?_tokens (lists : List OpenList) : (shape : Shape) →
    run? ⟨lists, none⟩ shape.tokens = some ⟨lists, some shape⟩
  | ⟨a, nullable, []⟩ => by
    rw [Shape.tokens, listTokens, List.append_nil, run?_cons_of_step (.atom lists a), run?_markTokens]
  | ⟨a, nullable, first :: shapes⟩ => by
    rw [Shape.tokens, listTokens, run?_cons_of_step (.atom lists a), run?_append, run?_markTokens,
      Option.bind_some, run?_cons_of_step (.opening lists a nullable), run?_append, run?_tokens _ first,
      Option.bind_some, run?_moreTokens lists shapes]
    rfl

theorem run?_moreTokens (lists : List OpenList) : (shapes : List Shape) → {list : OpenList} →
    {item : Shape} → run? ⟨list :: lists, some item⟩ (moreTokens shapes) =
      some ⟨lists, some ⟨list.atom, list.nullable, (item :: list.earlier).reverse ++ shapes⟩⟩
  | [], list, item => by
    rw [moreTokens, run?_cons_of_step (.closing list lists item), List.append_nil, run?_nil]
  | shape :: shapes, list, item => by
    rw [moreTokens, run?_cons_of_step (.comma list lists item), run?_append, run?_tokens _ shape,
      Option.bind_some, run?_moreTokens lists shapes]
    simp

end

theorem shape?_eq_some_iff {reading : Reading} {shape : Shape} :
    reading.shape? = some shape ↔ reading = ⟨[], some shape⟩ ∧ shape.standsAlone = true := by
  obtain ⟨lists, item⟩ := reading
  unfold shape?
  split
  · next heq =>
    cases heq
    simp only [reduceCtorEq, false_iff, not_and]
    intro h
    cases h
    simp [standsAlone]
  · next item hne heq =>
    cases heq
    constructor
    · intro h
      cases h
      refine ⟨rfl, ?_⟩
      unfold standsAlone
      split
      · next l => exact absurd rfl (hne l)
      · rfl
    · rintro ⟨h, -⟩
      cases h
      rfl
  · next hne =>
    simp only [reduceCtorEq, false_iff, not_and]
    intro h
    exact absurd h (hne shape)

/-- Tokens are read to the end exactly when a run over all of them completes a shape. -/
theorem finish_eq_ok_iff {reading : Reading} {index : Nat} {ts : List Token} {shape : Shape} :
    reading.finish index ts = .ok shape ↔
      ∃ last, reading.run? ts = some last ∧ last.shape? = some shape := by
  induction ts generalizing reading index with
  | nil =>
    rw [finish]
    simp only [run?_nil, Option.some.injEq, exists_eq_left']
    cases hshape : reading.shape? with
    | none => simp
    | some item => simp
  | cons token ts ih =>
    rw [finish, run?]
    cases hstep : reading.step? token with
    | none => simp
    | some next => simp [ih]

/-- A reading stops before tokens that it cannot go on with. -/
def StopsBefore (reading : Reading) (after : List Token) : Prop :=
  ∀ token ∈ after.head?, reading.step? token = none

theorem exists_run?_of_stopsBefore {reading a b : Reading} {before after front rest : List Token}
    (heq : before ++ after = front ++ rest) (ha : reading.run? before = some a)
    (hstop : a.StopsBefore after) (hb : reading.run? front = some b) :
    ∃ more, before = front ++ more ∧ b.run? more = some a := by
  induction front generalizing reading before with
  | nil =>
    cases hb
    exact ⟨before, rfl, ha⟩
  | cons token front ih =>
    obtain ⟨next, hnext, hfront⟩ := Option.bind_eq_some_iff.mp hb
    cases before with
    | nil =>
      cases ha
      rw [List.nil_append] at heq
      subst heq
      have hnone := hstop token (by simp)
      rw [hnext] at hnone
      cases hnone
    | cons token' before =>
      obtain ⟨rfl, htail⟩ := List.cons.inj heq
      rw [run?, hnext, Option.bind_some] at ha
      obtain ⟨more, rfl, hmore⟩ := ih htail ha hfront
      exact ⟨more, rfl, hmore⟩

/-- There is one place only where the reading of given tokens stops. -/
theorem eq_of_stopsBefore {reading a b : Reading} {before before' after after' : List Token}
    (heq : before ++ after = before' ++ after') (ha : reading.run? before = some a)
    (hb : reading.run? before' = some b) (hstop : a.StopsBefore after) (hstop' : b.StopsBefore after') :
    a = b := by
  obtain ⟨more, rfl, hmore⟩ := exists_run?_of_stopsBefore heq ha hstop hb
  rw [List.append_assoc] at heq
  obtain rfl := List.append_cancel_left heq
  cases more with
  | nil => exact (Option.some.inj hmore).symm
  | cons token more =>
    have hnone := hstop' token (by simp)
    simp [run?, hnone] at hmore

/-- Reading fails where a run stops: at the first token that cannot come, or at the end of the tokens
if what has been read is no signature. -/
theorem exists_run?_of_finish_eq_error {reading : Reading} {index : Nat} {ts : List Token}
    {fault : GrammarFault} (h : reading.finish index ts = .error fault) :
    ∃ before last after, ts = before ++ after ∧ reading.run? before = some last ∧
      last.StopsBefore after ∧ (after = [] → last.shape? = none) ∧
      fault = last.fault after.head? (index + before.length) := by
  induction ts generalizing reading index with
  | nil =>
    rw [finish] at h
    split at h
    · cases h
    · next hshape =>
      cases h
      exact ⟨[], reading, [], rfl, rfl, by simp [StopsBefore], fun _ => hshape, rfl⟩
  | cons token ts ih =>
    rw [finish] at h
    split at h
    · next next hstep =>
      obtain ⟨before, last, after, rfl, hrun, hstop, hend, hfault⟩ := ih h
      refine ⟨token :: before, last, after, rfl, ?_, hstop, hend, ?_⟩
      · rw [run?_cons_of_step (step?_eq_some_iff.mp hstep), hrun]
      · rw [hfault, List.length_cons, Nat.add_assoc, Nat.add_comm 1]
    · next hstep =>
      cases h
      exact ⟨[], reading, token :: ts, rfl, rfl, by simpa [StopsBefore] using hstep, nofun, rfl⟩

end Reading

namespace Shape

/-- Tokens are read as a shape exactly when they are its tokens and it may stand alone. -/
theorem ofTokens_eq_ok_iff {ts : List Token} {shape : Shape} :
    ofTokens ts = .ok shape ↔ shape.standsAlone = true ∧ shape.tokens = ts := by
  rw [ofTokens, Reading.finish_eq_ok_iff]
  constructor
  · rintro ⟨last, hrun, hshape⟩
    obtain ⟨rfl, halone⟩ := Reading.shape?_eq_some_iff.mp hshape
    have htokens := Reading.tokens_of_run? hrun
    rw [Reading.tokens_start, List.nil_append] at htokens
    exact ⟨halone, htokens⟩
  · rintro ⟨halone, rfl⟩
    exact ⟨⟨[], some shape⟩, Reading.run?_tokens [] shape, Reading.shape?_eq_some_iff.mpr ⟨rfl, halone⟩⟩

theorem tokens_injective {s t : Shape} (h : s.tokens = t.tokens) : s = t := by
  have hs := Reading.run?_tokens [] s
  rw [h, Reading.run?_tokens [] t] at hs
  simpa using hs.symm

end Shape

end Signatures
