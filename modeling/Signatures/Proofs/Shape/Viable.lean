import Signatures.Proofs.Shape.Reading

/-!
# Viable prefixes

Tokens are viable if some tokens after them complete a signature. Every reading can be completed, so
the viable tokens are those that can be read, the fault is at the first token that makes them stop
being viable, and what a reading expects is what the grammar allows to come next.

The exception is a literal with a mark whose list is not complete: only a list can follow it.
-/

namespace Signatures

def Text.Precedes (s t : String) : Prop :=
  s.toList.lex t.toList (fun c d => decide (c.toNat < d.toNat)) = true

instance (s t : String) : Decidable (Text.Precedes s t) :=
  inferInstanceAs (Decidable (_ = true))

def Expectation.ofToken : Token → Expectation
  | .ident _ | .int _ => atom
  | .lt => lt
  | .gt => gt
  | .comma => comma
  | .question => question

namespace Grammar

/-- The tokens are the beginning of a signature. -/
def Viable (ts : List Token) : Prop := ∃ rest, IsSignature (ts ++ rest)

/-- What can legally come after some tokens: a token with which they are viable, or their end if they
are a signature. -/
inductive Follows (ts : List Token) : Expectation → Prop where
  | token (token : Token) (h : Viable (ts ++ [token])) : Follows ts (.ofToken token)
  | finish (h : IsSignature ts) : Follows ts .finish

/-- The tokens stop being a signature at an index: all before it are viable, and either the token of
that index makes them stop being so, or they end there and are no signature. -/
structure BreaksAt (ts : List Token) (index : Nat) : Prop where
  le_length : index ≤ ts.length
  viable : ∀ n ≤ index, Viable (ts.take n)
  not_viable : index < ts.length → ¬ Viable (ts.take (index + 1))
  not_signature : index = ts.length → ¬ IsSignature ts

/-- The tokens start with an integer and a mark that no complete list follows. -/
def IsMarkedNumber (ts : List Token) : Prop :=
  ∃ l rest, ts = .int l :: .question :: rest ∧ ∀ list after, rest = list ++ after → ¬ IsList list

end Grammar

namespace Reading

open Shape Grammar

/-- Every open list can be closed, and then the reading is complete or needs a list. -/
theorem exists_completion_of_item (lists : List OpenList) (item : Shape) :
    ∃ rest shape, run? ⟨lists, some item⟩ rest = some ⟨[], some shape⟩ ∧ shape.standsAlone = true := by
  induction lists generalizing item with
  | nil =>
    by_cases halone : item.standsAlone = true
    · exact ⟨[], item, rfl, halone⟩
    · obtain ⟨a, nullable, args⟩ := item
      cases args with
      | cons first shapes => exact absurd (standsAlone_iff.mpr (.inr (.inl (List.cons_ne_nil _ _)))) halone
      | nil =>
        refine ⟨listTokens [⟨.name "any", false, []⟩], ⟨a, nullable, [⟨.name "any", false, []⟩]⟩, ?_, ?_⟩
        · rw [listTokens, run?_cons_of_step (.opening [] a nullable), run?_append, run?_tokens,
            Option.bind_some, run?_moreTokens]
          rfl
        · exact standsAlone_iff.mpr (.inr (.inl (List.cons_ne_nil _ _)))
  | cons list lists ih =>
    obtain ⟨rest, shape, hrun, halone⟩ := ih ⟨list.atom, list.nullable, (item :: list.earlier).reverse⟩
    exact ⟨.gt :: rest, shape, by rw [run?_cons_of_step (.closing list lists item), hrun], halone⟩

theorem exists_completion (reading : Reading) :
    ∃ rest shape, reading.run? rest = some ⟨[], some shape⟩ ∧ shape.standsAlone = true := by
  obtain ⟨lists, item⟩ := reading
  cases item with
  | some item => exact exists_completion_of_item lists item
  | none =>
    obtain ⟨rest, shape, hrun, halone⟩ := exists_completion_of_item lists ⟨.name "any", false, []⟩
    have hstep := run?_cons_of_step (.atom lists (.name "any")) rest
    exact ⟨.ident "any" :: rest, shape, hstep.trans hrun, halone⟩

/-- The signatures are the tokens that can be read to the end. -/
theorem isSignature_iff_run? {ts : List Token} :
    IsSignature ts ↔ ∃ last, start.run? ts = some last ∧ ∃ shape, last.shape? = some shape := by
  rw [isSignature_iff_exists_shape]
  constructor
  · rintro ⟨shape, halone, rfl⟩
    exact ⟨_, run?_tokens [] shape, shape, shape?_eq_some_iff.mpr ⟨rfl, halone⟩⟩
  · rintro ⟨last, hrun, shape, hshape⟩
    exact ⟨shape, ofTokens_eq_ok_iff.mp (finish_eq_ok_iff.mpr ⟨last, hrun, hshape⟩)⟩

/-- The viable tokens are those that can be read. -/
theorem viable_iff_run? {ts : List Token} : Viable ts ↔ ∃ last, start.run? ts = some last := by
  constructor
  · rintro ⟨rest, h⟩
    obtain ⟨last, hrun, -⟩ := isSignature_iff_run?.mp h
    rw [run?_append] at hrun
    obtain ⟨middle, hmiddle, -⟩ := Option.bind_eq_some_iff.mp hrun
    exact ⟨middle, hmiddle⟩
  · rintro ⟨last, hrun⟩
    obtain ⟨rest, shape, hrest, halone⟩ := exists_completion last
    refine ⟨rest, isSignature_iff_run?.mpr ⟨⟨[], some shape⟩, ?_, shape, ?_⟩⟩
    · rw [run?_append, hrun, Option.bind_some, hrest]
    · exact shape?_eq_some_iff.mpr ⟨rfl, halone⟩

theorem viable_append_singleton_iff {ts : List Token} {reading : Reading} {token : Token}
    (hrun : start.run? ts = some reading) :
    Viable (ts ++ [token]) ↔ ∃ next, Step reading token next := by
  rw [viable_iff_run?, run?_append, hrun, Option.bind_some]
  constructor
  · rintro ⟨last, hlast⟩
    obtain ⟨next, hstep, -⟩ := Option.bind_eq_some_iff.mp hlast
    exact ⟨next, step?_eq_some_iff.mp hstep⟩
  · rintro ⟨next, hstep⟩
    exact ⟨next, run?_cons_of_step hstep []⟩

theorem Step.mem_expected {reading next : Reading} {token : Token} (h : Step reading token next) :
    Expectation.ofToken token ∈ reading.expected := by
  cases h with
  | atom lists a => cases a <;> simp [expected, Atom.token, Expectation.ofToken]
  | mark lists a => simp [expected, Expectation.ofToken]
  | opening lists a nullable => simp [expected, Expectation.ofToken]
  | comma list lists item => simp [expected, Expectation.ofToken]
  | closing list lists item => simp [expected, Expectation.ofToken]

theorem step_or_shape?_of_mem_expected {reading : Reading} {e : Expectation}
    (hmarked : reading.startsMarkedNumber = false) (h : e ∈ reading.expected) :
    (∃ token next, Expectation.ofToken token = e ∧ Step reading token next) ∨
      (e = .finish ∧ ∃ shape, reading.shape? = some shape) := by
  obtain ⟨lists, item⟩ := reading
  cases item with
  | none =>
    obtain rfl : e = .atom := by simpa [expected] using h
    exact .inl ⟨.ident "any", _, rfl, .atom lists (.name "any")⟩
  | some item =>
    obtain ⟨a, nullable, args⟩ := item
    cases e with
    | atom => simp [expected] at h
    | comma =>
      cases lists with
      | nil => simp [expected] at h
      | cons list lists => exact .inl ⟨.comma, _, rfl, .comma list lists _⟩
    | gt =>
      cases lists with
      | nil => simp [expected] at h
      | cons list lists => exact .inl ⟨.gt, _, rfl, .closing list lists _⟩
    | lt =>
      cases args with
      | nil => exact .inl ⟨.lt, _, rfl, .opening lists a nullable⟩
      | cons first shapes => simp [expected] at h
    | question =>
      cases args with
      | cons first shapes => simp [expected] at h
      | nil =>
        cases nullable with
        | false => exact .inl ⟨.question, _, rfl, .mark lists a⟩
        | true => simp [expected] at h
    | finish =>
      cases lists with
      | cons list lists => simp [expected] at h
      | nil =>
        refine .inr ⟨rfl, _, shape?_eq_some_iff.mpr ⟨rfl, ?_⟩⟩
        unfold standsAlone
        split
        · next l heq =>
          cases heq
          simp [startsMarkedNumber] at hmarked
        · rfl

/-- A reading expects exactly what can legally come after its tokens, unless a literal with a mark
still needs its list. -/
theorem mem_expected_iff {ts : List Token} {reading : Reading} (hrun : start.run? ts = some reading)
    (hmarked : reading.startsMarkedNumber = false) (e : Expectation) :
    e ∈ reading.expected ↔ Follows ts e := by
  constructor
  · intro h
    rcases step_or_shape?_of_mem_expected hmarked h with ⟨token, next, rfl, hstep⟩ | ⟨rfl, shape, hshape⟩
    · exact .token token ((viable_append_singleton_iff hrun).mpr ⟨next, hstep⟩)
    · exact .finish (isSignature_iff_run?.mpr ⟨reading, hrun, shape, hshape⟩)
  · intro h
    cases h with
    | token token hviable =>
      obtain ⟨next, hstep⟩ := (viable_append_singleton_iff hrun).mp hviable
      exact hstep.mem_expected
    | finish hsignature =>
      obtain ⟨last, hlast, shape, hshape⟩ := isSignature_iff_run?.mp hsignature
      rw [hrun] at hlast
      cases hlast
      obtain ⟨rfl, -⟩ := shape?_eq_some_iff.mp hshape
      simp [expected]

theorem pairwise_expected (reading : Reading) :
    (reading.expected.map Expectation.text).Pairwise Text.Precedes := by
  obtain ⟨lists, item⟩ := reading
  cases item with
  | none => simp [expected]
  | some item =>
    obtain ⟨a, nullable, args⟩ := item
    cases lists <;> cases nullable <;> cases args <;> simp [expected, Expectation.behind, Expectation.text] <;> decide

theorem breaksAt_of_stopsBefore {before after : List Token} {last : Reading}
    (hrun : start.run? before = some last) (hstop : last.StopsBefore after)
    (hend : after = [] → last.shape? = none) : BreaksAt (before ++ after) before.length where
  le_length := by simp
  viable n hn := by
    rw [List.take_append_of_le_length hn]
    refine viable_iff_run?.mpr ?_
    rw [← List.take_append_drop n before, run?_append] at hrun
    obtain ⟨middle, hmiddle, -⟩ := Option.bind_eq_some_iff.mp hrun
    exact ⟨middle, hmiddle⟩
  not_viable hlt := by
    cases after with
    | nil => simp at hlt
    | cons token after =>
      rw [List.take_length_add_append, List.take_succ_cons, List.take_zero,
        viable_append_singleton_iff hrun]
      rintro ⟨next, hstep⟩
      have hnone := hstop token (by simp)
      rw [step?_eq_some_iff.mpr hstep] at hnone
      cases hnone
  not_signature hlen := by
    obtain rfl : after = [] := List.length_eq_zero_iff.mp (by simpa using hlen)
    rw [List.append_nil, isSignature_iff_run?]
    rintro ⟨last', hrun', shape, hshape⟩
    rw [hrun] at hrun'
    cases hrun'
    rw [hend rfl] at hshape
    cases hshape

/-- A reading that starts with a literal and a mark and has not completed their list: the list is the
outermost open one, or it has not been opened yet. -/
inductive NeedsList : Reading → Prop where
  | inside (lists : List OpenList) (l : Literal) (earlier : List Shape) (item : Option Shape) :
      NeedsList ⟨lists ++ [⟨.literal l, true, earlier⟩], item⟩
  | ahead (l : Literal) : NeedsList ⟨[], some ⟨.literal l, true, []⟩⟩

theorem startsMarkedNumber_iff {reading : Reading} :
    reading.startsMarkedNumber = true ↔ NeedsList reading := by
  constructor
  · intro h
    obtain ⟨lists, item⟩ := reading
    rcases lists.eq_nil_or_concat with rfl | ⟨outer, list, rfl⟩
    · rcases item with _ | ⟨a | l, nullable, _ | ⟨first, shapes⟩⟩
      all_goals simp [startsMarkedNumber] at h
      subst h
      exact .ahead l
    · obtain ⟨a | l, nullable, earlier⟩ := list
      all_goals simp [startsMarkedNumber] at h
      subst h
      rw [List.concat_eq_append]
      exact .inside outer l earlier item
  · intro h
    cases h with
    | inside lists l earlier item => simp [startsMarkedNumber]
    | ahead l => rfl

theorem NeedsList.step {reading next : Reading} {token : Token} (h : NeedsList reading)
    (hstep : Step reading token next) :
    NeedsList next ∨ ∃ l first shapes, next = ⟨[], some ⟨.literal l, true, first :: shapes⟩⟩ := by
  cases h with
  | ahead l =>
    cases hstep with
    | opening => exact .inl (.inside [] l [] none)
  | inside lists l earlier item =>
    -- Only a step that ends the outermost list can end the need for it.
    generalize hall : lists ++ [(⟨.literal l, true, earlier⟩ : OpenList)] = all at hstep
    cases hstep with
    | atom _ a => subst hall; exact .inl (.inside lists l earlier _)
    | mark _ a => subst hall; exact .inl (.inside lists l earlier _)
    | opening _ a nullable => subst hall; exact .inl (.inside (⟨a, nullable, []⟩ :: lists) l earlier none)
    | comma list outer item =>
      cases lists with
      | nil =>
        cases hall
        exact .inl (.inside [] l (item :: earlier) none)
      | cons inner lists =>
        cases hall
        exact .inl (.inside (⟨list.atom, list.nullable, item :: list.earlier⟩ :: lists) l earlier none)
    | closing list outer item =>
      cases lists with
      | cons inner lists =>
        cases hall
        exact .inl (.inside lists l earlier _)
      | nil =>
        cases hall
        obtain ⟨first, shapes, heq⟩ := List.exists_cons_of_ne_nil
          (List.reverse_ne_nil_iff.mpr (List.cons_ne_nil item earlier))
        exact .inr ⟨l, first, shapes, by rw [heq]⟩

/-- Once a literal with a mark has been read, a run over more tokens either completes its list on the
way or still needs it. -/
theorem NeedsList.run {reading last : Reading} {ts : List Token} (h : NeedsList reading)
    (hrun : reading.run? ts = some last) :
    NeedsList last ∨ ∃ before after l first shapes, ts = before ++ after ∧
      reading.run? before = some ⟨[], some ⟨.literal l, true, first :: shapes⟩⟩ := by
  induction ts generalizing reading with
  | nil =>
    cases hrun
    exact .inl h
  | cons token ts ih =>
    obtain ⟨next, hnext, hrest⟩ := Option.bind_eq_some_iff.mp hrun
    have hstep := step?_eq_some_iff.mp hnext
    rcases h.step hstep with hneeds | ⟨l, first, shapes, rfl⟩
    · rcases ih hneeds hrest with hlast | ⟨before, after, l, first, shapes, rfl, hbefore⟩
      · exact .inl hlast
      · refine .inr ⟨token :: before, after, l, first, shapes, rfl, ?_⟩
        rw [run?_cons_of_step hstep, hbefore]
    · exact .inr ⟨[token], ts, l, first, shapes, rfl, run?_cons_of_step hstep []⟩

theorem NeedsList.exists_tokens {reading : Reading} (h : NeedsList reading) :
    ∃ l rest, reading.tokens = .int l :: .question :: rest := by
  cases h with
  | inside lists l earlier item =>
    exact ⟨l, _, by simp [Reading.tokens, OpenList.tokens, markTokens, Atom.token]; rfl⟩
  | ahead l => exact ⟨l, [], by
      simp [Reading.tokens, itemTokens, Shape.tokens, listTokens, markTokens, Atom.token]⟩

theorem stopsBefore_of_complete (a : Atom) (nullable : Bool) (first : Shape) (shapes : List Shape)
    (after : List Token) : StopsBefore ⟨[], some ⟨a, nullable, first :: shapes⟩⟩ after := by
  intro token _
  cases hstep : step? ⟨[], some ⟨a, nullable, first :: shapes⟩⟩ token with
  | none => rfl
  | some next => cases step?_eq_some_iff.mp hstep

/-- The tokens start with a marked number exactly when the reading stops before its list is
complete. -/
theorem isMarkedNumber_iff {before after : List Token} {last : Reading}
    (hrun : start.run? before = some last) (hstop : last.StopsBefore after) :
    IsMarkedNumber (before ++ after) ↔ last.startsMarkedNumber = true := by
  rw [startsMarkedNumber_iff]
  constructor
  · rintro ⟨l, rest, hts, hlist⟩
    have hmark : start.run? [.int l, .question] = some ⟨[], some ⟨.literal l, true, []⟩⟩ := rfl
    obtain ⟨more, rfl, hmore⟩ := exists_run?_of_stopsBefore hts hrun hstop hmark
    obtain rfl : more ++ after = rest := by simpa using hts
    rcases (NeedsList.ahead l).run hmore with hneeds | ⟨list, after', l', first, shapes, rfl, hcomplete⟩
    · exact hneeds
    · have htokens : [.int l', .question] ++ listTokens (first :: shapes) =
          [.int l, .question] ++ list := by
        simpa [Reading.tokens, itemTokens, Shape.tokens, markTokens, Atom.token, listTokens]
          using tokens_of_run? hcomplete
      have heq := List.append_inj_right htokens rfl
      exact absurd (heq ▸ isList_listTokens first shapes) (hlist list (after' ++ after) (by simp))
  · intro h
    obtain ⟨l, rest, htokens⟩ := h.exists_tokens
    rw [tokens_of_run? hrun, tokens_start, List.nil_append] at htokens
    subst htokens
    refine ⟨l, rest ++ after, rfl, ?_⟩
    intro list after' heq hlist
    obtain ⟨first, shapes, rfl⟩ := hlist.exists_shapes
    have hcomplete := run?_tokens [] ⟨.literal l, true, first :: shapes⟩
    have hts : .int l :: .question :: rest ++ after =
        Shape.tokens ⟨.literal l, true, first :: shapes⟩ ++ after' := by
      rw [Shape.tokens, List.cons_append, List.cons_append, heq]
      rfl
    have hlast := eq_of_stopsBefore hts hrun hcomplete hstop (stopsBefore_of_complete _ _ _ _ _)
    subst hlast
    simp [← startsMarkedNumber_iff, startsMarkedNumber] at h

end Reading

namespace Grammar

theorem IsMarkedNumber.not_isSignature {ts : List Token} (h : IsMarkedNumber ts) :
    ¬ IsSignature ts := by
  rcases h with ⟨l, rest, rfl, hlist⟩
  intro hsignature
  generalize hts : Token.int l :: .question :: rest = ts at hsignature
  cases hsignature with
  | number l' => cases hts
  | name n nullable => cases hts
  | @listed a nullable list h =>
    cases nullable with
    | true =>
      rcases List.cons.inj (List.cons.inj hts).2 with ⟨-, rfl⟩
      exact hlist rest [] (List.append_nil rest).symm h
    | false =>
      cases h with
      | brackets h => cases (List.cons.inj hts).2

end Grammar

namespace Shape

open Grammar

/-- The tokens of a fault are those that break, and it names what could have followed the tokens before
in the order of the texts; or they start with a marked number, and that is the fault. -/
theorem ofTokens_eq_error {ts : List Token} {fault : GrammarFault} (h : ofTokens ts = .error fault) :
    (IsMarkedNumber ts ∧ fault = .markedNumber) ∨
      (¬ IsMarkedNumber ts ∧ ∃ expected index, BreaksAt ts index ∧
        (expected.map Expectation.text).Pairwise Text.Precedes ∧
        (∀ e, e ∈ expected ↔ Follows (ts.take index) e) ∧
        fault = .unexpected expected ts[index]? index) := by
  rcases Reading.exists_run?_of_finish_eq_error h with ⟨before, last, after, rfl, hrun, hstop, hend, rfl⟩
  have hiff := Reading.isMarkedNumber_iff hrun hstop
  by_cases hmarked : last.startsMarkedNumber = true
  · exact .inl ⟨hiff.mpr hmarked, by rw [Reading.fault, if_pos hmarked]⟩
  · refine .inr ⟨fun h => hmarked (hiff.mp h), last.expected, before.length, ?_, ?_, ?_, ?_⟩
    · exact Reading.breaksAt_of_stopsBefore hrun hstop hend
    · exact Reading.pairwise_expected last
    · rw [List.take_left]
      exact Reading.mem_expected_iff hrun ((Bool.not_eq_true _).mp hmarked)
    · rw [Reading.fault, if_neg hmarked, Nat.zero_add, List.getElem?_append_right (Nat.le_refl _),
        Nat.sub_self, List.head?_eq_getElem?]

theorem ofTokens_of_isMarkedNumber {ts : List Token} (h : IsMarkedNumber ts) :
    ofTokens ts = .error .markedNumber := by
  cases hread : ofTokens ts with
  | ok shape =>
    rcases ofTokens_eq_ok_iff.mp hread with ⟨halone, htokens⟩
    exact absurd (isSignature_iff_exists_shape.mpr ⟨shape, halone, htokens⟩) h.not_isSignature
  | error fault =>
    rcases ofTokens_eq_error hread with ⟨-, rfl⟩ | ⟨hnot, -⟩
    · rfl
    · exact absurd h hnot

end Shape

end Signatures
