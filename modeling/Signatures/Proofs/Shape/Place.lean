import Signatures.Proofs.Shape.Reading

/-!
# Places in a shape

A place in a shape is the sequence of the argument indices that lead to it. The place where a token stands is
told by the brackets and commas before it: an opening bracket leads to the first argument of a list, a comma to
the next one, and a closing bracket out of the list. A shape with arguments is complete once its tokens have
been read, so it stands in the shape of the whole at the place where they start.
-/

namespace Signatures

/-- The place of the item behind one more token, the index in the innermost list first. -/
def Token.advance (place : List Nat) : Token → List Nat
  | lt => 0 :: place
  | comma => place.modifyHead (· + 1)
  | gt => place.tail
  | _ => place

/-- The place of the item behind the given tokens, the index in the outermost list first. -/
def placeAfter (ts : List Token) : List Nat := (ts.foldl Token.advance []).reverse

def OpenList.index (list : OpenList) : Nat := list.earlier.length

namespace Shape

def at? : List Nat → Shape → Option Shape
  | [], shape => some shape
  | index :: place, shape => shape.args[index]?.bind (at? place)

theorem args_ne_nil_of_at? {shape t : Shape} {place : List Nat} (h : shape.at? place = some t)
    (hlisted : t.args ≠ []) : shape.args ≠ [] := by
  cases place with
  | nil =>
    cases h
    exact hlisted
  | cons index place =>
    intro hnil
    simp [at?, hnil] at h

end Shape

namespace Reading

variable {reading next last : Reading} {token : Token} {ts : List Token} {lists : List OpenList}
  {list : OpenList} {item : Option Shape} {shape t : Shape} {place : List Nat}

/-- The place of the item that stands in the innermost of some open lists. -/
def placeIn (lists : List OpenList) : List Nat := (lists.map OpenList.index).reverse

theorem placeIn_cons (list : OpenList) (lists : List OpenList) :
    placeIn (list :: lists) = placeIn lists ++ [list.index] := by
  rw [placeIn, placeIn, List.map_cons, List.reverse_cons]

theorem Step.map_index (h : Step reading token next) :
    next.openLists.map OpenList.index = token.advance (reading.openLists.map OpenList.index) := by
  cases h with
  | atom lists a => cases a <;> rfl
  | mark lists a => rfl
  | opening lists a nullable => rfl
  | comma list lists item => rfl
  | closing list lists item => rfl

theorem map_index_of_run? (h : reading.run? ts = some last) :
    last.openLists.map OpenList.index = ts.foldl Token.advance (reading.openLists.map OpenList.index) := by
  induction ts generalizing reading with
  | nil =>
    cases h
    rfl
  | cons token ts ih =>
    rcases Option.bind_eq_some_iff.mp h with ⟨next, hnext, hrun⟩
    rw [ih hrun, (step?_eq_some_iff.mp hnext).map_index, List.foldl_cons]

/-- The item behind the tokens of a reading stands at the place that they tell. -/
theorem placeIn_of_run? (h : start.run? ts = some last) : placeIn last.openLists = placeAfter ts := by
  rw [placeIn, map_index_of_run? h, placeAfter]
  rfl

/-- A shape stands at a place of a reading, inside an argument that is complete: the item read last, or an
earlier argument of an open list. -/
inductive Holds (t : Shape) : Reading → List Nat → Prop where
  | item {lists : List OpenList} {item : Shape} {place : List Nat} (h : item.at? place = some t) :
      Holds t ⟨lists, some item⟩ (placeIn lists ++ place)
  | earlier {list : OpenList} {lists : List OpenList} {item : Option Shape} {index : Nat} {shape : Shape}
      {place : List Nat} (hshape : list.earlier.reverse[index]? = some shape) (h : shape.at? place = some t) :
      Holds t ⟨list :: lists, item⟩ (placeIn lists ++ index :: place)
  | outer {list : OpenList} {lists : List OpenList} {item : Option Shape} {place : List Nat}
      (h : Holds t ⟨lists, none⟩ place) : Holds t ⟨list :: lists, item⟩ place

theorem Holds.of_none (h : Holds t ⟨lists, none⟩ place) : Holds t ⟨lists, item⟩ place := by
  cases h with
  | earlier hshape h => exact .earlier hshape h
  | outer h => exact .outer h

theorem Holds.item_or_none (h : Holds t ⟨lists, some shape⟩ place) :
    (∃ inside, shape.at? inside = some t ∧ place = placeIn lists ++ inside) ∨ Holds t ⟨lists, none⟩ place := by
  cases h with
  | item h => exact .inl ⟨_, h, rfl⟩
  | earlier hshape h => exact .inr (.earlier hshape h)
  | outer h => exact .inr (.outer h)

theorem Holds.of_bare {a : Atom} {nullable : Bool} (h : Holds t ⟨lists, some ⟨a, nullable, []⟩⟩ place)
    (hlisted : t.args ≠ []) : Holds t ⟨lists, none⟩ place := by
  rcases h.item_or_none with ⟨inside, hinside, -⟩ | hopen
  · exact absurd rfl (Shape.args_ne_nil_of_at? hinside hlisted)
  · exact hopen

theorem Holds.argument_or_outer (h : Holds t ⟨list :: lists, some shape⟩ place) :
    (∃ index arg inside, (shape :: list.earlier).reverse[index]? = some arg ∧ arg.at? inside = some t ∧
      place = placeIn lists ++ index :: inside) ∨ Holds t ⟨lists, none⟩ place := by
  rw [List.reverse_cons]
  rcases h.item_or_none with ⟨inside, hinside, rfl⟩ | hopen
  · refine .inl ⟨list.index, shape, inside, by simp [OpenList.index], hinside, ?_⟩
    rw [placeIn_cons, List.append_assoc, List.singleton_append]
  · cases hopen with
    | earlier harg hinside =>
      have hlt := (List.getElem?_eq_some_iff.mp harg).1
      exact .inl ⟨_, _, _, by rw [List.getElem?_append_left hlt, harg], hinside, rfl⟩
    | outer houter => exact .inr houter

/-- No token moves or changes a shape with arguments that has been read. -/
theorem Holds.step (h : Holds t reading place) (hlisted : t.args ≠ []) (hstep : Step reading token next) :
    Holds t next place := by
  cases hstep with
  | atom lists a => exact h.of_none
  | mark lists a => exact (h.of_bare hlisted).of_none
  | opening lists a nullable => exact .outer (h.of_bare hlisted)
  | comma list lists item =>
    rcases h.argument_or_outer with ⟨index, arg, inside, harg, hinside, rfl⟩ | houter
    · exact .earlier harg hinside
    · exact .outer houter
  | closing list lists item =>
    rcases h.argument_or_outer with ⟨index, arg, inside, harg, hinside, rfl⟩ | houter
    · exact .item (by rw [Shape.at?, harg, Option.bind_some, hinside])
    · exact houter.of_none

theorem Holds.run (h : Holds t reading place) (hlisted : t.args ≠ []) (hrun : reading.run? ts = some last) :
    Holds t last place := by
  induction ts generalizing reading with
  | nil =>
    cases hrun
    exact h
  | cons token ts ih =>
    rcases Option.bind_eq_some_iff.mp hrun with ⟨next, hnext, hrest⟩
    exact ih (h.step hlisted (step?_eq_some_iff.mp hnext)) hrest

/-- A shape is only read where no item has been read yet. -/
theorem item_eq_none_of_run?_tokens (h : reading.run? (shape.tokens ++ ts) = some last) :
    reading.item = none := by
  rcases shape with ⟨a, nullable, args⟩
  rw [Shape.tokens, List.cons_append] at h
  rcases Option.bind_eq_some_iff.mp h with ⟨next, hnext, -⟩
  have hstep := step?_eq_some_iff.mp hnext
  generalize htoken : a.token = token at hstep
  cases hstep with
  | atom lists b => rfl
  | mark | opening | comma | closing => cases a <;> cases htoken

end Reading

open Reading in
/-- Where the tokens of a shape with arguments stand among those of another shape, it stands in this shape at the
place that the tokens before it tell. -/
theorem Shape.at?_placeAfter {shape t : Shape} {before after : List Token}
    (h : shape.tokens = before ++ (t.tokens ++ after)) (hlisted : t.args ≠ []) :
    shape.at? (placeAfter before) = some t := by
  have hrun := run?_tokens [] shape
  rw [h, run?_append] at hrun
  rcases Option.bind_eq_some_iff.mp hrun with ⟨reading, hbefore, hrest⟩
  -- The tokens before leave the item open, so the shape becomes the item that stands at their place.
  have hitem := item_eq_none_of_run?_tokens hrest
  rcases reading with ⟨lists, item⟩
  cases hitem
  rw [run?_append, run?_tokens, Option.bind_some] at hrest
  have hheld : Holds t ⟨lists, some t⟩ (placeIn lists ++ []) := .item rfl
  rw [List.append_nil, placeIn_of_run? hbefore] at hheld
  have hlast := hheld.run hlisted hrest
  generalize placeAfter before = place at hlast
  cases hlast with
  | item h => exact h

/-- A list that is closed and a comma lead to the second argument of the list around it. -/
example : placeAfter [.ident "map", .lt, .ident "list", .lt, .ident "i8", .gt, .comma] = [1] := rfl

end Signatures
