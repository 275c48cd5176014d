import Signatures.Error
import Signatures.Proofs.ArgType.Resolving
import Signatures.Proofs.Catalog.Reachable

/-!
# Which fault of a type expression is reported

Resolving accepts a type expression exactly if every expression in it has a known name and arguments of the
number and the kind that the name takes. Otherwise it reports the fault of the first expression that does
not, where an expression comes before its arguments and arguments stand from left to right: an unknown name
before a wrong number of arguments, and that before the first argument of the wrong kind.
-/

namespace Signatures

namespace ArgKind

/-- An argument is of a kind. No argument is of the kind of the types that take none. -/
def Fits {τ : Type} (kind : ArgKind) (arg : Arg τ) : Prop :=
  match kind with
  | empty => False
  | integer => arg.isParam = true
  | type => arg.isParam = false
  | mixed => True

inductive Mismatch (index : Nat) : ArgKind → Arg TypeExpr → ArityFault → Prop where
  | param (inner : TypeExpr) : Mismatch index integer (.type inner) (.wantsParam index inner)
  | type (value : Param) : Mismatch index type (.param value) (.wantsType index value)

theorem Mismatch.not_fits {index : Nat} {kind : ArgKind} {arg : Arg TypeExpr} {fault : ArityFault}
    (h : Mismatch index kind arg fault) : ¬ kind.Fits arg := by
  cases h <;> simp [Fits, Arg.isParam]

theorem fits_of_admits {τ : Type} {kind : ArgKind} {arg : Arg τ} (hkind : kind ≠ .empty)
    (h : kind.admits arg = true) : kind.Fits arg := by
  cases kind <;> cases arg <;> simp_all [Fits, admits, Arg.isParam]

end ArgKind

namespace ArgRule

def Allows (rule : ArgRule) (count : Nat) : Prop :=
  rule.min.toNat ≤ count ∧ ∀ max, rule.max = some max → count ≤ max.toNat

theorem exists_mismatch {kind : ArgKind} {index : Nat} {args : List (Arg TypeExpr)} {fault : ArityFault}
    (h : mismatch? kind index args = some fault) :
    ∃ before arg after, args = before ++ arg :: after ∧ (∀ earlier ∈ before, kind.Fits earlier) ∧
      ArgKind.Mismatch (index + before.length) kind arg fault := by
  induction args generalizing index with
  | nil => cases h
  | cons arg args ih =>
    by_cases hadmits : kind.admits arg = true
    · have hrest : mismatch? kind (index + 1) args = some fault := by
        cases kind <;> cases arg <;> simp_all [mismatch?, ArgKind.admits]
      rcases ih hrest with ⟨before, other, after, rfl, hbefore, hother⟩
      have hkind : kind ≠ .empty := by
        rintro rfl
        cases hother
      refine ⟨arg :: before, other, after, rfl, ?_, ?_⟩
      · exact List.forall_mem_cons.mpr ⟨ArgKind.fits_of_admits hkind hadmits, hbefore⟩
      · rw [List.length_cons, ← Nat.add_assoc, Nat.add_right_comm]
        exact hother
    · refine ⟨[], arg, args, rfl, List.forall_mem_nil _, ?_⟩
      cases kind <;> cases arg <;> simp_all [mismatch?, ArgKind.admits]
      · subst h
        exact .param _
      · subst h
        exact .type _

end ArgRule

namespace ArityFault

/-- A fault of an argument that was taken by its index and is not there. -/
def IsMissing : ArityFault → Prop
  | missingParam _ | missingType _ => True
  | _ => False

theorem backquote_notMem_toDigits (n : Nat) : '`' ∉ Nat.toDigits 10 n := by
  intro hmem
  exact absurd (Nat.isDigit_of_mem_toDigits (by decide) (by decide) hmem) (by decide)

/-- A missing argument is worded like one of the wrong kind, but nothing is quoted that was found. -/
theorem IsMissing.message {fault : ArityFault} (h : fault.IsMissing) :
    fault.message.toList.head? = some 'a' ∧ '`' ∉ fault.message.toList := by
  cases fault with
  | missingParam index =>
    simp [ArityFault.message, toString, String.toList_append, backquote_notMem_toDigits]
  | missingType index =>
    simp [ArityFault.message, toString, String.toList_append, backquote_notMem_toDigits]
  | count | wantsParam | wantsType => cases h

theorem message_ne_of_isMissing {fault missing : ArityFault} (h : ¬ fault.IsMissing)
    (hmissing : missing.IsMissing) : fault.message ≠ missing.message := by
  intro heq
  have hmessage := hmissing.message
  rw [← heq] at hmessage
  cases fault with
  | count rule found => simp [ArityFault.message, toString, String.toList_append] at hmessage
  | wantsParam index found => simp [ArityFault.message, toString, String.toList_append] at hmessage
  | wantsType index found => simp [ArityFault.message, toString, String.toList_append] at hmessage
  | missingParam | missingType => exact h trivial

end ArityFault

theorem ArgKind.Mismatch.not_isMissing {index : Nat} {kind : ArgKind} {arg : Arg TypeExpr}
    {fault : ArityFault} (h : Mismatch index kind arg fault) : ¬ fault.IsMissing := by
  cases h <;> exact id

namespace TypeExpr

mutual

def nodes : TypeExpr → List TypeExpr
  | ⟨name, nullable, args⟩ => ⟨name, nullable, args⟩ :: nodesOfArgs args

def nodesOfArgs : List (Arg TypeExpr) → List TypeExpr
  | [] => []
  | .param _ :: args => nodesOfArgs args
  | .type inner :: args => inner.nodes ++ nodesOfArgs args

end

end TypeExpr

namespace Catalog

variable {catalog : Catalog}

/-- A type expression suits a catalog by itself: its name is known, and its arguments are of the number and
the kind that the name takes. -/
def Suits (catalog : Catalog) (node : TypeExpr) : Prop :=
  ∃ entry, catalog.lookup? node.name = some entry ∧ entry.rule.Allows node.args.length ∧
    ∀ arg ∈ node.args, entry.rule.kind.Fits arg

/-- The fault of a type expression by itself: its name is not known, else the number of its arguments is not
allowed, else its first argument of the wrong kind. -/
inductive Offends (catalog : Catalog) (node : TypeExpr) : ResolveFault → Prop where
  | unknown (h : catalog.lookup? node.name = none) : Offends catalog node (.unknown node.name)
  | count {entry : Entry} (h : catalog.lookup? node.name = some entry)
      (hcount : ¬ entry.rule.Allows node.args.length) :
      Offends catalog node (.arity node.name (.count entry.rule node.args.length))
  | kind {entry : Entry} {before after : List (Arg TypeExpr)} {arg : Arg TypeExpr} {fault : ArityFault}
      (h : catalog.lookup? node.name = some entry) (hcount : entry.rule.Allows node.args.length)
      (hargs : node.args = before ++ arg :: after) (hbefore : ∀ earlier ∈ before, entry.rule.kind.Fits earlier)
      (hfault : ArgKind.Mismatch before.length entry.rule.kind arg fault) :
      Offends catalog node (.arity node.name fault)

theorem Offends.not_suits {node : TypeExpr} {fault : ResolveFault} (h : catalog.Offends node fault) :
    ¬ catalog.Suits node := by
  rintro ⟨entry, hlookup, hallows, hfits⟩
  cases h with
  | unknown h =>
    rw [hlookup] at h
    cases h
  | count h hcount =>
    rw [hlookup] at h
    cases h
    exact hcount hallows
  | kind h hcount hargs hbefore hfault =>
    rw [hlookup] at h
    cases h
    refine hfault.not_fits (hfits _ ?_)
    simp [hargs]

/-- No type expression offends by an argument that is missing, in fact or in words. -/
theorem Offends.ne_missing {node : TypeExpr} {fault : ResolveFault} (h : catalog.Offends node fault)
    (name : String) {missing : ArityFault} (hmissing : missing.IsMissing) :
    Error.ofResolve fault ≠ Error.ofResolve (.arity name missing) := by
  have hmessage {found : ArityFault} (hfound : ¬ found.IsMissing) :
      Error.ofResolve (.arity node.name found) ≠ Error.ofResolve (.arity name missing) := by
    intro heq
    exact ArityFault.message_ne_of_isMissing hfound hmissing (Error.arity.inj heq).2
  cases h with
  | unknown h => exact nofun
  | count h hcount => exact hmessage id
  | kind h hcount hargs hbefore hfault => exact hmessage hfault.not_isMissing

/-- The fault of the first type expression that does not suit a catalog by itself. -/
def FirstFault (catalog : Catalog) (nodes : List TypeExpr) (fault : ResolveFault) : Prop :=
  ∃ before node after, nodes = before ++ node :: after ∧ (∀ earlier ∈ before, catalog.Suits earlier) ∧
    catalog.Offends node fault

theorem FirstFault.exists_not_suits {nodes : List TypeExpr} {fault : ResolveFault}
    (h : catalog.FirstFault nodes fault) : ∃ node ∈ nodes, ¬ catalog.Suits node := by
  rcases h with ⟨before, node, after, rfl, -, hoffends⟩
  exact ⟨node, by simp, hoffends.not_suits⟩

theorem FirstFault.append_right {nodes : List TypeExpr} {fault : ResolveFault}
    (h : catalog.FirstFault nodes fault) (more : List TypeExpr) : catalog.FirstFault (nodes ++ more) fault := by
  rcases h with ⟨before, node, after, rfl, hbefore, hoffends⟩
  exact ⟨before, node, after ++ more, by simp, hbefore, hoffends⟩

theorem FirstFault.append_left {nodes : List TypeExpr} {fault : ResolveFault}
    (h : catalog.FirstFault nodes fault) {earlier : List TypeExpr}
    (hearlier : ∀ node ∈ earlier, catalog.Suits node) : catalog.FirstFault (earlier ++ nodes) fault := by
  rcases h with ⟨before, node, after, rfl, hbefore, hoffends⟩
  refine ⟨earlier ++ before, node, after, by simp, ?_, hoffends⟩
  exact List.forall_mem_append.mpr ⟨hearlier, hbefore⟩

/-- In a valid catalog, a name that takes no arguments says so by their number. -/
theorem Valid.eq_nil_of_empty (h : catalog.Valid) {name : String} {entry : Entry}
    (hlookup : catalog.lookup? name = some entry) (hkind : entry.rule.kind = .empty)
    {args : List (Arg TypeExpr)} (hallows : entry.rule.Allows args.length) : args = [] := by
  have hmax : entry.rule.max = some 0 := by
    cases meaning_of_lookup? hlookup with
    | builtin type hmem hname =>
      have htable : ∀ type ∈ Builtin.table, type.entry.rule.kind = .empty → type.entry.rule.max = some 0 := by
        decide
      exact htable type hmem hkind
    | extension ext hmem hname => exact ((h.valid ext hmem).no_args_of_empty hkind).2
    | wildcard hwild => rfl
  exact List.length_eq_zero_iff.mp (Nat.le_zero.mp (hallows.2 0 hmax))

/-- The check of a rule passes exactly the expressions that suit the catalog, and finds the fault of every
other one. -/
theorem Valid.check_cases (h : catalog.Valid) {node : TypeExpr} {entry : Entry}
    (hlookup : catalog.lookup? node.name = some entry) :
    (entry.rule.check node.args = .ok () ∧ catalog.Suits node) ∨
      ∃ fault, entry.rule.check node.args = .error fault ∧ catalog.Offends node (.arity node.name fault) := by
  by_cases hcount : entry.rule.allowsCount node.args.length = true
  · have hallows := ArgRule.allowsCount_eq_true_iff.mp hcount
    cases hmismatch : ArgRule.mismatch? entry.rule.kind 0 node.args with
    | none =>
      have hadmits := (ArgRule.mismatch?_eq_none_iff _ _ _).mp hmismatch
      refine .inl ⟨(ArgRule.check_eq_ok_iff _ _).mpr ⟨hcount, hadmits⟩, entry, hlookup, hallows, ?_⟩
      by_cases hkind : entry.rule.kind = .empty
      · rw [h.eq_nil_of_empty hlookup hkind hallows]
        exact nofun
      · exact fun arg hmem => ArgKind.fits_of_admits hkind (hadmits arg hmem)
    | some fault =>
      rcases ArgRule.exists_mismatch hmismatch with ⟨before, arg, after, hargs, hbefore, hfault⟩
      rw [Nat.zero_add] at hfault
      exact .inr ⟨fault, by rw [ArgRule.check, if_pos hcount, hmismatch],
        .kind hlookup hallows hargs hbefore hfault⟩
  · refine .inr ⟨_, by rw [ArgRule.check, if_neg hcount], .count hlookup ?_⟩
    exact fun hallows => hcount (ArgRule.allowsCount_eq_true_iff.mpr hallows)

mutual

/-- A type expression is resolved and all in it suits the catalog, or it has the first fault in it. -/
theorem Valid.resolve_cases (h : catalog.Valid) : (expr : TypeExpr) →
    ((∃ t, catalog.resolve expr = .ok t) ∧ ∀ node ∈ expr.nodes, catalog.Suits node) ∨
      ∃ fault, catalog.resolve expr = .error fault ∧ catalog.FirstFault expr.nodes fault
  | ⟨name, nullable, args⟩ => by
    rw [TypeExpr.nodes]
    cases hlookup : catalog.lookup? name with
    | none =>
      exact .inr ⟨_, resolve_eq_unknown hlookup nullable args, [], _, _, rfl, nofun, .unknown hlookup⟩
    | some entry =>
      rcases @Valid.check_cases catalog h ⟨name, nullable, args⟩ entry hlookup with
        ⟨hcheck, hsuits⟩ | ⟨fault, hcheck, hoffends⟩
      · rw [resolve_eq hlookup, hcheck]
        rcases h.resolveArgs_cases args with ⟨⟨resolved, hresolved⟩, hall⟩ | ⟨fault, hfault, hfirst⟩
        · rw [hresolved]
          exact .inl ⟨⟨_, rfl⟩, List.forall_mem_cons.mpr ⟨hsuits, hall⟩⟩
        · rw [hfault]
          exact .inr ⟨fault, rfl, hfirst.append_left (List.forall_mem_singleton.mpr hsuits)⟩
      · rw [resolve_eq hlookup, hcheck]
        exact .inr ⟨_, rfl, [], _, _, rfl, nofun, hoffends⟩

theorem Valid.resolveArgs_cases (h : catalog.Valid) : (args : List (Arg TypeExpr)) →
    ((∃ resolved, catalog.resolveArgs args = .ok resolved) ∧
        ∀ node ∈ TypeExpr.nodesOfArgs args, catalog.Suits node) ∨
      ∃ fault, catalog.resolveArgs args = .error fault ∧
        catalog.FirstFault (TypeExpr.nodesOfArgs args) fault
  | [] => by
    rw [TypeExpr.nodesOfArgs]
    exact .inl ⟨⟨[], resolveArgs_nil⟩, nofun⟩
  | .param value :: args => by
    rw [TypeExpr.nodesOfArgs, resolveArgs_param]
    rcases h.resolveArgs_cases args with ⟨⟨resolved, hresolved⟩, hall⟩ | ⟨fault, hfault, hfirst⟩
    · rw [hresolved]
      exact .inl ⟨⟨_, rfl⟩, hall⟩
    · rw [hfault]
      exact .inr ⟨fault, rfl, hfirst⟩
  | .type inner :: args => by
    rw [TypeExpr.nodesOfArgs, resolveArgs_type]
    rcases h.resolve_cases inner with ⟨⟨t, ht⟩, hinner⟩ | ⟨fault, hfault, hfirst⟩
    · rw [ht]
      rcases h.resolveArgs_cases args with ⟨⟨resolved, hresolved⟩, hall⟩ | ⟨fault, hfault, hfirst⟩
      · rw [hresolved]
        exact .inl ⟨⟨_, rfl⟩, List.forall_mem_append.mpr ⟨hinner, hall⟩⟩
      · rw [hfault]
        exact .inr ⟨fault, rfl, hfirst.append_left hinner⟩
    · rw [hfault]
      exact .inr ⟨fault, rfl, hfirst.append_right _⟩

end

/-- Under a catalog that comes from adding extensions, a type expression is resolved exactly if every
expression in it suits the catalog by itself. Otherwise the fault is that of the first one that does not,
and no argument is ever missing where a kind takes one. -/
theorem Reachable.resolve_reports_first_offence (h : catalog.Reachable) (expr : TypeExpr) :
    ((∃ t, catalog.resolve expr = .ok t) ↔ ∀ node ∈ expr.nodes, catalog.Suits node) ∧
      (∀ fault, catalog.resolve expr = .error fault → catalog.FirstFault expr.nodes fault) ∧
      ∀ name missing, missing.IsMissing →
        (catalog.resolve expr).mapError Error.ofResolve ≠ .error (Error.ofResolve (.arity name missing)) := by
  rcases h.valid.resolve_cases expr with ⟨⟨t, ht⟩, hall⟩ | ⟨fault, hfault, hfirst⟩
  · rw [ht]
    exact ⟨⟨fun _ => hall, fun _ => ⟨t, rfl⟩⟩, nofun, nofun⟩
  · rw [hfault]
    refine ⟨⟨nofun, ?_⟩, ?_, ?_⟩
    · intro hall
      rcases hfirst.exists_not_suits with ⟨node, hmem, hnot⟩
      exact absurd (hall node hmem) hnot
    · intro found heq
      cases heq
      exact hfirst
    · intro name missing hmissing heq
      rcases hfirst with ⟨before, node, after, -, -, hoffends⟩
      exact hoffends.ne_missing name hmissing (Except.error.inj heq)

/-- A point with one parameter is reported, and not the unknown name that stands behind it. -/
theorem resolve_reports_first_offence_points :
    points.Reachable ∧ ArityFault.IsMissing (.missingType 0) ∧
      points.resolve ⟨"map", false, [.type ⟨"point", true, [.param (.fixed 1)]⟩, .type ⟨"nope", false, []⟩]⟩ =
        .error (.arity "point" (.count ⟨2, some 2, .integer⟩ 1)) ∧
      points.FirstFault
        [⟨"map", false, [.type ⟨"point", true, [.param (.fixed 1)]⟩, .type ⟨"nope", false, []⟩]⟩,
          ⟨"point", true, [.param (.fixed 1)]⟩, ⟨"nope", false, []⟩]
        (.arity "point" (.count ⟨2, some 2, .integer⟩ 1)) := by
  have hfault : points.resolve
      ⟨"map", false, [.type ⟨"point", true, [.param (.fixed 1)]⟩, .type ⟨"nope", false, []⟩]⟩ =
        .error (.arity "point" (.count ⟨2, some 2, .integer⟩ 1)) := by
    rfl
  exact ⟨reachable_points, trivial, hfault,
    (Reachable.resolve_reports_first_offence reachable_points _).2.1 _ hfault⟩

end Catalog

end Signatures
