import Signatures.Lexeme
import Signatures.Proofs.Text.Decimal
import Signatures.Proofs.Text.Parts

/-!
# Which texts spell which lexemes

A text spells lexemes if it is their texts in this order with blanks between them, where a name or a
literal is never directly followed by a letter, a digit or `_`. Spelling is compositional, and it is
all there is to cutting a text into lexemes.
-/

namespace Signatures

open Text

namespace Text

/-- The text does not go on with a letter, a digit or `_`. -/
def NoWord (rest : List Char) : Prop := ∀ c ∈ rest.head?, isIdentRest c = false

theorem noWord_nil : NoWord [] := nofun

theorem noWord_cons {c : Char} (h : isIdentRest c = false) (rest : List Char) : NoWord (c :: rest) := by
  intro d hd
  cases hd
  exact h

theorem NoWord.isDigit_eq_false {rest : List Char} (h : NoWord rest) :
    ∀ c ∈ rest.head?, c.isDigit = false := by
  intro c hc
  apply eq_false_of_ne_true
  intro hdigit
  exact ne_true_of_eq_false (h c hc) (isIdentRest_of_isDigit hdigit)

theorem noWord_iff {rest : List Char} : NoWord rest ↔ rest.head?.filter isIdentRest = none := by
  simp [NoWord, Option.filter_eq_none_iff]

end Text

namespace Token

def Written : Token → Prop
  | ident name => isIdentifier name.toList = true
  | _ => True

/-- A name or a literal is as long as it can be before the given text. -/
def EndsBefore (rest : List Char) : Token → Prop
  | ident _ | int _ => NoWord rest
  | _ => True

theorem EndsBefore.of_rest {token : Token} {cs rest rest' : List Char}
    (h : token.EndsBefore (cs ++ rest)) (hrest : NoWord rest → NoWord rest') :
    token.EndsBefore (cs ++ rest') := by
  have hword (h : NoWord (cs ++ rest)) : NoWord (cs ++ rest') := by
    cases cs with
    | nil => exact hrest h
    | cons c cs => exact h
  cases token with
  | ident name => exact hword h
  | int l => exact hword h
  | lt | gt | comma | question => trivial

end Token

namespace Text

theorem toNat_of_isDigit {c : Char} (h : c.isDigit = true) : 48 ≤ c.toNat ∧ c.toNat ≤ 57 := by
  simp only [Char.isDigit, Bool.and_eq_true, decide_eq_true_eq, ge_iff_le, UInt32.le_iff_toNat_le] at h
  exact h

theorem toNat_of_isIdentStart {c : Char} (h : isIdentStart c = true) :
    (65 ≤ c.toNat ∧ c.toNat ≤ 90) ∨ (97 ≤ c.toNat ∧ c.toNat ≤ 122) ∨ c.toNat = 95 := by
  change ((decide (c.val ≥ 65 ∧ c.val ≤ 90) || (decide (c.val ≥ 97) && decide (c.val ≤ 122))) ||
    c == '_') = true at h
  simp only [Bool.or_eq_true, Bool.and_eq_true, decide_eq_true_eq, ge_iff_le, UInt32.le_iff_toNat_le,
    beq_iff_eq] at h
  rcases h with (h | h) | rfl
  · exact .inl h
  · exact .inr (.inl h)
  · exact .inr (.inr rfl)

theorem toNat_of_isBlank {c : Char} (h : isBlank c = true) : c.toNat ≤ 32 ∨ 133 ≤ c.toNat := by
  simp only [isBlank, Bool.or_eq_true, Bool.and_eq_true, decide_eq_true_eq, beq_iff_eq,
    UInt32.le_iff_toNat_le, ← UInt32.toNat_inj, UInt32.reduceToNat, Char.toNat_val] at h
  omega

end Text

namespace Lexeme

/-- The text at `offset` spells the lexemes where the text `rest` comes after it. -/
inductive Spells : Nat → List Char → List Lexeme → List Char → Prop where
  | nil (offset : Nat) (rest : List Char) : Spells offset [] [] rest
  | blank {offset : Nat} {c : Char} {cs rest : List Char} {lexemes : List Lexeme}
      (hc : isBlank c = true) (h : Spells (offset + c.utf8Size) cs lexemes rest) :
      Spells offset (c :: cs) lexemes rest
  | token {offset : Nat} {token : Token} {cs rest : List Char} {lexemes : List Lexeme}
      (hwritten : token.Written) (hends : token.EndsBefore (cs ++ rest))
      (h : Spells (offset + byteSize token.text.toList) cs lexemes rest) :
      Spells offset (token.text.toList ++ cs)
        (⟨token, ⟨offset, offset + byteSize token.text.toList⟩⟩ :: lexemes) rest

theorem Spells.append {offset : Nat} {cs ds rest : List Char} {lexemes more : List Lexeme}
    (h : Spells offset cs lexemes (ds ++ rest)) (hmore : Spells (offset + byteSize cs) ds more rest) :
    Spells offset (cs ++ ds) (lexemes ++ more) rest := by
  -- The text after the first part is only fixed once that part ends, so it becomes a variable here.
  generalize hall : ds ++ rest = all at h
  induction h with
  | nil offset rest => simpa using hmore
  | blank hc h ih =>
    refine .blank hc (ih ?_ hall)
    simpa [Nat.add_assoc] using hmore
  | token hwritten hends h ih =>
    subst hall
    rw [List.append_assoc]
    refine .token hwritten ?_ (ih ?_ rfl)
    · rwa [List.append_assoc]
    · simpa [Nat.add_assoc] using hmore

/-- A text spells the same lexemes before another rest, unless only that rest starts with a letter, a digit
or `_`. -/
theorem Spells.of_rest {offset : Nat} {cs rest rest' : List Char} {lexemes : List Lexeme}
    (h : Spells offset cs lexemes rest) (hrest : NoWord rest → NoWord rest') :
    Spells offset cs lexemes rest' := by
  induction h with
  | nil offset rest => exact .nil offset rest'
  | blank hc h ih => exact .blank hc (ih hrest)
  | token hwritten hends h ih => exact .token hwritten (hends.of_rest hrest) (ih hrest)

/-- A literal is read from a run of digits that no letter, digit or `_` follows. -/
theorem readLiteral_eq_ok_iff {sign cs rest : List Char} {offset : Nat} {token : Token} :
    readLiteral sign offset cs = .ok (token, rest) ↔
      ∃ l, token = .int l ∧ l.text.toList = sign ++ cs.takeWhile Char.isDigit ∧
        rest = cs.dropWhile Char.isDigit ∧ NoWord rest := by
  constructor
  · intro h
    simp only [readLiteral] at h
    split at h
    · cases h
    · next hends =>
      split at h
      · next l hl =>
        cases h
        have htext := Literal.text_of_ofText? hl
        exact ⟨l, rfl, by rw [htext, String.toList_ofList], rfl, noWord_iff.mpr hends⟩
      · split at h <;> cases h
  · rintro ⟨l, rfl, htext, rfl, hends⟩
    simp only [readLiteral, noWord_iff.mp hends]
    rw [← htext, String.ofList_toList, Literal.ofText?_text]

/-- What is read is a written token as long as it can be, and the text after it. -/
theorem readToken_eq_ok {offset : Nat} {c : Char} {cs rest : List Char} {token : Token}
    (h : readToken offset c cs = .ok (token, rest)) :
    token.Written ∧ token.EndsBefore rest ∧ c :: cs = token.text.toList ++ rest := by
  rw [readToken] at h
  split at h
  · rcases readLiteral_eq_ok_iff.mp h with ⟨l, rfl, htext, rfl, hends⟩
    refine ⟨trivial, hends, ?_⟩
    rw [Token.text, htext, List.nil_append, List.takeWhile_append_dropWhile]
  split at h
  · next hc =>
    split at h
    · rcases readLiteral_eq_ok_iff.mp h with ⟨l, rfl, htext, rfl, hends⟩
      refine ⟨trivial, hends, ?_⟩
      rw [Token.text, htext, List.append_assoc, List.takeWhile_append_dropWhile, hc]
      rfl
    · cases h
  split at h
  · next hc =>
    cases h
    refine ⟨?_, head?_dropWhile, ?_⟩
    · simp [Token.Written, isIdentifier, hc]
    · simp [Token.text, List.takeWhile_append_dropWhile]
  split at h
  · next hc => cases h; exact ⟨trivial, trivial, by rw [hc]; rfl⟩
  split at h
  · next hc => cases h; exact ⟨trivial, trivial, by rw [hc]; rfl⟩
  split at h
  · next hc => cases h; exact ⟨trivial, trivial, by rw [hc]; rfl⟩
  split at h
  · next hc => cases h; exact ⟨trivial, trivial, by rw [hc]; rfl⟩
  · cases h

theorem readToken_int {offset : Nat} {l : Literal} {c : Char} {cs rest : List Char}
    (hends : (Token.int l).EndsBefore rest) (htext : c :: cs = l.text.toList ++ rest) :
    readToken offset c cs = .ok (.int l, rest) := by
  have hstop := NoWord.isDigit_eq_false hends
  have hint := l.isInt32_text
  generalize hl : l.text.toList = text at hint htext
  cases hint with
  | plain h hvalue =>
    have hc : c.isDigit = true := by
      cases text with
      | nil => exact absurd rfl h.1
      | cons d ds =>
        cases htext
        exact h.2 c (List.mem_cons_self ..)
    rw [readToken, if_pos hc, readLiteral_eq_ok_iff]
    refine ⟨l, rfl, ?_, ?_, hends⟩
    · rw [htext, takeWhile_append_of_head h.2 hstop, hl, List.nil_append]
    · rw [htext, dropWhile_append_of_head h.2 hstop]
  | @minus digits h hvalue =>
    rw [List.cons_append] at htext
    rcases List.cons.inj htext with ⟨rfl, rfl⟩
    have hany : ((digits ++ rest).head?.any Char.isDigit) = true := by
      cases digits with
      | nil => exact absurd rfl h.1
      | cons d ds => simpa using h.2 d (List.mem_cons_self ..)
    rw [readToken, if_neg (by decide), if_pos rfl, if_pos hany, readLiteral_eq_ok_iff]
    refine ⟨l, rfl, ?_, ?_, hends⟩
    · rw [takeWhile_append_of_head h.2 hstop, hl]
      rfl
    · rw [dropWhile_append_of_head h.2 hstop]

theorem readToken_ident {offset : Nat} {name : String} {c : Char} {cs rest : List Char}
    (hname : isIdentifier name.toList = true) (hends : (Token.ident name).EndsBefore rest)
    (htext : c :: cs = name.toList ++ rest) : readToken offset c cs = .ok (.ident name, rest) := by
  have hofList := String.ofList_toList (s := name)
  generalize name.toList = text at hname htext hofList
  cases text with
  | nil => cases hname
  | cons d ds =>
    rw [List.cons_append] at htext
    rcases List.cons.inj htext with ⟨rfl, rfl⟩
    rw [isIdentifier, Bool.and_eq_true, List.all_eq_true] at hname
    have hstart := toNat_of_isIdentStart hname.1
    have hdigit : c.isDigit ≠ true := fun h => by
      have hd := toNat_of_isDigit h
      omega
    have hminus : c ≠ '-' := by
      rintro rfl
      exact absurd hname.1 (by decide)
    rw [readToken, if_neg hdigit, if_neg hminus, if_pos hname.1, takeWhile_append_of_head hname.2 hends,
      dropWhile_append_of_head hname.2 hends, hofList]

theorem readToken_of_written {offset : Nat} {token : Token} {c : Char} {cs rest : List Char}
    (hwritten : token.Written) (hends : token.EndsBefore rest)
    (htext : c :: cs = token.text.toList ++ rest) : readToken offset c cs = .ok (token, rest) := by
  cases token with
  | ident name => exact readToken_ident hwritten hends htext
  | int l => exact readToken_int hends htext
  | lt => cases htext; rfl
  | gt => cases htext; rfl
  | comma => cases htext; rfl
  | question => cases htext; rfl

end Lexeme

theorem Text.isBlank_eq_false_of_isIdentRest {c : Char} (h : isIdentRest c = true) : isBlank c = false := by
  have hbounds : 48 ≤ c.toNat ∧ c.toNat ≤ 122 := by
    simp only [isIdentRest, Char.isAlphanum, Bool.or_eq_true] at h
    rcases h with (h | h) | h
    · have hstart := toNat_of_isIdentStart (c := c) (by simp [isIdentStart, h])
      omega
    · have hdigit := toNat_of_isDigit h
      omega
    · have hstart := toNat_of_isIdentStart (c := c) (by simp [isIdentStart, h])
      omega
  apply eq_false_of_ne_true
  intro hblank
  have hout := toNat_of_isBlank hblank
  omega

namespace Token

theorem isBlank_eq_false_of_mem_text {token : Token} (hwritten : token.Written) :
    ∀ c ∈ token.text.toList, isBlank c = false := by
  have hmark (mark : Char) (h : isBlank mark = false) : ∀ c ∈ [mark], isBlank c = false := by
    simpa using h
  cases token with
  | lt => exact hmark '<' rfl
  | gt => exact hmark '>' rfl
  | comma => exact hmark ',' rfl
  | question => exact hmark '?' rfl
  | ident name =>
    rw [Token.text]
    change isIdentifier name.toList = true at hwritten
    cases hname : name.toList with
    | nil => nofun
    | cons c cs =>
      rw [hname, isIdentifier, Bool.and_eq_true, List.all_eq_true] at hwritten
      intro d hd
      rcases List.mem_cons.mp hd with rfl | hd
      · exact isBlank_eq_false_of_isIdentRest (isIdentRest_of_isIdentStart hwritten.1)
      · exact isBlank_eq_false_of_isIdentRest (hwritten.2 d hd)
  | int l =>
    rw [Token.text]
    have hint := l.isInt32_text
    generalize l.text.toList = text at hint
    have hdigit : ∀ c : Char, c.isDigit = true → isBlank c = false := fun c hc =>
      isBlank_eq_false_of_isIdentRest (isIdentRest_of_isDigit hc)
    cases hint with
    | plain h hvalue => exact fun c hc => hdigit c (h.2 c hc)
    | minus h hvalue =>
      intro c hc
      rcases List.mem_cons.mp hc with rfl | hc
      · decide
      · exact hdigit c (h.2 c hc)

theorem text_ne_nil {token : Token} (hwritten : token.Written) : token.text.toList ≠ [] := by
  cases token with
  | lt => exact List.cons_ne_nil '<' []
  | gt => exact List.cons_ne_nil '>' []
  | comma => exact List.cons_ne_nil ',' []
  | question => exact List.cons_ne_nil '?' []
  | ident name =>
    rw [Token.text]
    change isIdentifier name.toList = true at hwritten
    intro hnil
    rw [hnil] at hwritten
    cases hwritten
  | int l =>
    rw [Token.text]
    have hint := l.isInt32_text
    generalize l.text.toList = text at hint
    cases hint with
    | plain h hvalue => exact h.1
    | minus h hvalue => simp

theorem exists_head {token : Token} (hwritten : token.Written) :
    ∃ c cs, token.text.toList = c :: cs ∧ isBlank c = false := by
  rcases List.exists_cons_of_ne_nil (text_ne_nil hwritten) with ⟨c, cs, htext⟩
  exact ⟨c, cs, htext, isBlank_eq_false_of_mem_text hwritten c (htext ▸ List.mem_cons_self)⟩

end Token

namespace Lexeme

theorem scanFrom_token {offset : Nat} {token : Token} {cs : List Char} (hwritten : token.Written)
    (hends : token.EndsBefore cs) :
    scanFrom offset (token.text.toList ++ cs) =
      (scanFrom (offset + byteSize token.text.toList) cs).map
        (⟨token, ⟨offset, offset + byteSize token.text.toList⟩⟩ :: ·) := by
  rcases Token.exists_head hwritten with ⟨c, ds, htext, hblank⟩
  have hread : readToken offset c (ds ++ cs) = .ok (token, cs) :=
    readToken_of_written hwritten hends (by rw [htext, List.cons_append])
  rw [htext, List.cons_append, scanFrom, if_neg (ne_true_of_eq_false hblank), ← htext]
  split
  · next hfault => rw [hread] at hfault; cases hfault
  · next hok =>
    rw [hread] at hok
    cases hok
    dsimp only
    cases scanFrom (offset + byteSize token.text.toList) cs <;> rfl

/-- A text spells exactly the lexemes that it is cut into. -/
theorem scanFrom_eq_ok_iff {offset : Nat} {cs : List Char} {lexemes : List Lexeme} :
    scanFrom offset cs = .ok lexemes ↔ Spells offset cs lexemes [] := by
  constructor
  · intro h
    fun_induction scanFrom offset cs generalizing lexemes with
    | case1 offset =>
      cases h
      exact .nil offset []
    | case2 offset c cs hblank ih => exact .blank hblank (ih h)
    | case3 offset c cs hblank fault hread => cases h
    | case4 offset c cs hblank token rest hread stop fault hrest => cases h
    | case5 offset c cs hblank token rest hread stop tail hrest =>
      rename_i ih
      cases h
      rcases readToken_eq_ok hread with ⟨hwritten, hends, htext⟩
      rw [htext]
      exact .token hwritten (by rwa [List.append_nil]) (ih hrest)
  · intro h
    generalize hrest : ([] : List Char) = rest at h
    induction h with
    | nil offset rest => rw [scanFrom]
    | blank hc h ih => rw [scanFrom, if_pos hc, ih hrest]
    | token hwritten hends h ih =>
      subst hrest
      rw [List.append_nil] at hends
      rw [scanFrom_token hwritten hends, ih rfl]
      rfl

/-- A text is not cut into lexemes exactly if no token can be read behind some part at its start that spells
lexemes; the fault is the one of reading there. -/
theorem scanFrom_eq_error_iff {offset : Nat} {cs : List Char} {fault : LexFault} :
    scanFrom offset cs = .error fault ↔
      ∃ before c after lexemes, cs = before ++ c :: after ∧ Spells offset before lexemes (c :: after) ∧
        isBlank c = false ∧ readToken (offset + byteSize before) c after = .error fault := by
  constructor
  · intro h
    fun_induction scanFrom offset cs with
    | case1 offset => cases h
    | case2 offset c cs hblank ih =>
      rcases ih h with ⟨before, d, after, lexemes, rfl, hspells, hd, hread⟩
      refine ⟨c :: before, d, after, lexemes, rfl, .blank hblank hspells, hd, ?_⟩
      rwa [byteSize_cons, ← Nat.add_assoc]
    | case3 offset c cs hblank fault' hread =>
      cases h
      exact ⟨[], c, cs, [], rfl, .nil offset _, eq_false_of_ne_true hblank, hread⟩
    | case4 offset c cs hblank token rest hread stop fault' hrest ih =>
      cases h
      rcases readToken_eq_ok hread with ⟨hwritten, hends, htext⟩
      rcases ih hrest with ⟨before, d, after, lexemes, rfl, hspells, hd, hfault⟩
      refine ⟨token.text.toList ++ before, d, after, _, ?_, .token hwritten hends hspells, hd, ?_⟩
      · rw [htext, List.append_assoc]
      · rwa [byteSize_append, ← Nat.add_assoc]
    | case5 offset c cs hblank token rest hread stop tail hrest ih => cases h
  · rintro ⟨before, c, after, lexemes, rfl, hspells, hc, hread⟩
    generalize hrest : c :: after = rest at hspells
    induction hspells with
    | nil offset rest =>
      subst hrest
      rw [byteSize_nil, Nat.add_zero] at hread
      rw [List.nil_append, scanFrom, if_neg (ne_true_of_eq_false hc)]
      split
      · next hfault =>
        rw [hread] at hfault
        cases hfault
        rfl
      · next hok => rw [hread] at hok; cases hok
    | blank hb h ih =>
      rw [byteSize_cons, ← Nat.add_assoc] at hread
      rw [List.cons_append, scanFrom, if_pos hb, ih hread hrest]
    | token hwritten hends h ih =>
      subst hrest
      rw [byteSize_append, ← Nat.add_assoc] at hread
      rw [List.append_assoc, scanFrom_token hwritten hends, ih hread rfl]
      rfl

theorem Spells.written {offset : Nat} {cs rest : List Char} {lexemes : List Lexeme}
    (h : Spells offset cs lexemes rest) : ∀ token ∈ lexemes.map Lexeme.token, token.Written := by
  induction h with
  | nil offset rest => simp
  | blank hc h ih => exact ih
  | token hwritten hends h ih =>
    intro token hmem
    rcases List.mem_cons.mp hmem with rfl | hmem
    · exact hwritten
    · exact ih token hmem

theorem Spells.single {offset : Nat} {token : Token} {rest : List Char} (hwritten : token.Written)
    (hends : token.EndsBefore rest) :
    Spells offset token.text.toList [⟨token, ⟨offset, offset + byteSize token.text.toList⟩⟩] rest := by
  have h : Spells offset (token.text.toList ++ []) _ rest := .token hwritten hends (.nil _ rest)
  rwa [List.append_nil] at h

/-- The text spells the tokens wherever it stands before `rest`. -/
def SpellsTokens (cs : List Char) (ts : List Token) (rest : List Char) : Prop :=
  ∀ offset, ∃ lexemes, Spells offset cs lexemes rest ∧ lexemes.map Lexeme.token = ts

theorem spellsTokens_blank {c : Char} (hc : isBlank c = true) (rest : List Char) :
    SpellsTokens [c] [] rest :=
  fun _ => ⟨[], .blank hc (.nil _ rest), rfl⟩

theorem spellsTokens_token {token : Token} {rest : List Char} (hwritten : token.Written)
    (hends : token.EndsBefore rest) : SpellsTokens token.text.toList [token] rest :=
  fun _ => ⟨_, .single hwritten hends, rfl⟩

theorem SpellsTokens.append {cs ds rest : List Char} {ts us : List Token}
    (h : SpellsTokens cs ts (ds ++ rest)) (hmore : SpellsTokens ds us rest) :
    SpellsTokens (cs ++ ds) (ts ++ us) rest := by
  intro offset
  rcases h offset with ⟨lexemes, hspells, rfl⟩
  rcases hmore (offset + byteSize cs) with ⟨more, hspells', rfl⟩
  exact ⟨lexemes ++ more, hspells.append hspells', by rw [List.map_append]⟩

theorem Spells.spellsTokens {offset : Nat} {cs rest : List Char} {lexemes : List Lexeme}
    (h : Spells offset cs lexemes rest) : SpellsTokens cs (lexemes.map Lexeme.token) rest := by
  induction h with
  | nil offset rest => exact fun _ => ⟨[], .nil _ rest, rfl⟩
  | blank hc h ih => exact (spellsTokens_blank hc _).append ih
  | token hwritten hends h ih => exact (spellsTokens_token hwritten hends).append ih

theorem SpellsTokens.exists_scan {source : String} {ts : List Token}
    (h : SpellsTokens source.toList ts []) :
    ∃ lexemes, scan source = .ok lexemes ∧ lexemes.map Lexeme.token = ts := by
  rcases h 0 with ⟨lexemes, hspells, htokens⟩
  exact ⟨lexemes, scanFrom_eq_ok_iff.mpr hspells, htokens⟩

theorem written_of_scan {source : String} {lexemes : List Lexeme} (h : scan source = .ok lexemes) :
    ∀ token ∈ lexemes.map Lexeme.token, token.Written :=
  (scanFrom_eq_ok_iff.mp h).written

end Lexeme

end Signatures
