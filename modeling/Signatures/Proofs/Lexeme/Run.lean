import Signatures.Proofs.Lexeme.Spelling

/-!
# Runs of a text

Every text is cut into runs with blanks between them, whether or not the runs are tokens. A name is as long
as it can be, and so are the digits behind a digit or a minus sign; any other character is a run of its own.
A run may be malformed: a minus sign without digits, digits that a letter or `_` follows, a number that
needs more than 32 bits, or a character that is no mark. What spells lexemes has none of these runs.
-/

namespace Signatures

open Text Text.Decimal

/-- A run of characters, with the text before it and the text after it. -/
structure Run where
  before : List Char
  text : List Char
  after : List Char

namespace Run

def goesOn (c d : Char) : Bool :=
  if isIdentStart c then isIdentRest d
  else if c.isDigit || c == '-' then d.isDigit
  else false

/-- The run at the start of the text `c :: cs`, which comes after `before`. -/
def first (before : List Char) (c : Char) (cs : List Char) : Run :=
  ⟨before, c :: cs.takeWhile (goesOn c), cs.dropWhile (goesOn c)⟩

def runsAfter (before : List Char) : List Char → List Run
  | [] => []
  | c :: cs =>
    if isBlank c then runsAfter (before ++ [c]) cs
    else
      let run := first before c cs
      run :: runsAfter (before ++ run.text) run.after
termination_by cs => cs.length
decreasing_by
  · simp
  · exact Nat.lt_succ_of_le (List.dropWhile_suffix _).length_le

def runs (source : String) : List Run := runsAfter [] source.toList

inductive Malformed : Run → Prop where
  /-- A minus sign and no digit after it. -/
  | loneMinus {before after : List Char} (h : ∀ d ∈ after.head?, d.isDigit = false) :
      Malformed ⟨before, ['-'], after⟩
  /-- A number that a letter or `_` follows. -/
  | wordInNumber {before text after : List Char} {n : Int} {c : Char} (h : integer? text = some n)
      (hc : isIdentStart c = true) : Malformed ⟨before, text, c :: after⟩
  /-- A number that does not fit in 32 bits. -/
  | outOfRange {before text after : List Char} {n : Int} (h : integer? text = some n)
      (hn : n < -2147483648 ∨ 2147483647 < n) : Malformed ⟨before, text, after⟩
  /-- A character that is no mark and starts neither a name nor a number. -/
  | stray {before after : List Char} {c : Char} (hstart : isIdentStart c = false)
      (hdigit : c.isDigit = false) (hmark : c ∉ ['-', '<', '>', ',', '?']) :
      Malformed ⟨before, [c], after⟩

section

open Lexeme

variable {before text after : List Char} {c : Char}

theorem isDigit_eq_false_of_isIdentStart (h : isIdentStart c = true) : c.isDigit = false := by
  apply eq_false_of_ne_true
  intro hdigit
  have hstart := toNat_of_isIdentStart h
  have hd := toNat_of_isDigit hdigit
  omega

theorem isIdentStart_eq_false_of_isDigit (h : c.isDigit = true) : isIdentStart c = false := by
  apply eq_false_of_ne_true
  intro hstart
  rw [isDigit_eq_false_of_isIdentStart hstart] at h
  cases h

theorem goesOn_of_isIdentStart (h : isIdentStart c = true) : goesOn c = isIdentRest := by
  funext d
  simp [goesOn, h]

theorem goesOn_of_isDigit (h : c.isDigit = true) : goesOn c = Char.isDigit := by
  funext d
  simp [goesOn, h, isIdentStart_eq_false_of_isDigit h]

theorem goesOn_minus : goesOn '-' = Char.isDigit := by
  funext d
  simp [goesOn, show isIdentStart '-' = false from rfl]

theorem goesOn_of_other (hstart : isIdentStart c = false) (hdigit : c.isDigit = false) (hc : c ≠ '-')
    (d : Char) : goesOn c d = false := by
  simp [goesOn, hstart, hdigit, hc]

theorem first_append {more : List Char} (hmore : ∀ d ∈ more, goesOn c d = true)
    (hafter : ∀ d ∈ after.head?, goesOn c d = false) :
    first before c (more ++ after) = ⟨before, c :: more, after⟩ := by
  rw [first, takeWhile_append_of_head hmore hafter, dropWhile_append_of_head hmore hafter]

theorem first_of_head (h : ∀ d ∈ after.head?, goesOn c d = false) :
    first before c after = ⟨before, [c], after⟩ := @first_append before after c [] nofun h

theorem first_of_written {token : Token} {cs : List Char} (hwritten : token.Written)
    (hends : token.EndsBefore after) (htext : c :: cs = token.text.toList ++ after) :
    first before c cs = ⟨before, token.text.toList, after⟩ := by
  have hmark {mark : Char} (hgoes : ∀ d, goesOn mark d = false) :
      first before mark after = ⟨before, [mark], after⟩ := first_of_head fun d _ => hgoes d
  cases token with
  | ident name =>
    rw [Token.text] at htext ⊢
    change isIdentifier name.toList = true at hwritten
    generalize name.toList = text at htext hwritten
    cases text with
    | nil => cases hwritten
    | cons d ds =>
      cases htext
      rw [isIdentifier, Bool.and_eq_true, List.all_eq_true] at hwritten
      have hgoes := goesOn_of_isIdentStart hwritten.1
      refine first_append (by rw [hgoes]; exact hwritten.2) ?_
      rw [hgoes]
      exact hends
  | int l =>
    rw [Token.text] at htext ⊢
    have hint := l.isInt32_text
    generalize l.text.toList = text at htext hint
    have hstop := NoWord.isDigit_eq_false hends
    cases hint with
    | plain h hvalue =>
      cases text with
      | nil => exact absurd rfl h.1
      | cons d ds =>
        cases htext
        rw [IsDigits, List.forall_mem_cons] at h
        have hgoes := goesOn_of_isDigit h.2.1
        exact first_append (by rw [hgoes]; exact h.2.2) (by rwa [hgoes])
    | minus h hvalue =>
      cases htext
      exact first_append (by rw [goesOn_minus]; exact h.2) (by rwa [goesOn_minus])
  | lt => cases htext; exact hmark fun _ => rfl
  | gt => cases htext; exact hmark fun _ => rfl
  | comma => cases htext; exact hmark fun _ => rfl
  | question => cases htext; exact hmark fun _ => rfl

theorem eq_int_of_integer? {token : Token} {n : Int} (hwritten : token.Written)
    (h : integer? token.text.toList = some n) : ∃ l, token = .int l := by
  cases token with
  | int l => exact ⟨l, rfl⟩
  | lt | gt | comma | question => simp [Token.text, integer?, natural?] at h
  | ident name =>
    rw [Token.text] at h
    change isIdentifier name.toList = true at hwritten
    generalize name.toList = text at h hwritten
    cases text with
    | nil => cases hwritten
    | cons c cs =>
      rw [isIdentifier, Bool.and_eq_true] at hwritten
      rcases integer?_eq_some_iff.mp h with ⟨hdigits, -⟩ | ⟨ds, heq, -, -⟩
      · have hdigit := hdigits.2 c List.mem_cons_self
        rw [isDigit_eq_false_of_isIdentStart hwritten.1] at hdigit
        cases hdigit
      · cases heq
        exact absurd hwritten.1 (by decide)

theorem isIdentStart_or_isDigit_or_mark {token : Token} (hwritten : token.Written)
    (htext : token.text.toList = [c]) :
    isIdentStart c = true ∨ c.isDigit = true ∨ c ∈ ['<', '>', ',', '?'] := by
  cases token with
  | ident name =>
    rw [Token.text] at htext
    change isIdentifier name.toList = true at hwritten
    rw [htext, isIdentifier, Bool.and_eq_true] at hwritten
    exact .inl hwritten.1
  | int l =>
    rw [Token.text] at htext
    have hint := l.isInt32_text
    rw [htext] at hint
    cases hint with
    | plain h hvalue => exact .inr (.inl (h.2 c List.mem_cons_self))
    | minus h hvalue => exact absurd rfl h.1
  | lt | gt | comma | question =>
    cases htext
    exact .inr (.inr (by decide))

/-- A written token is not malformed before a text where it ends. -/
theorem not_malformed_of_written {token : Token} (hwritten : token.Written)
    (hends : token.EndsBefore after) : ¬ Malformed ⟨before, token.text.toList, after⟩ := by
  intro h
  generalize htext : token.text.toList = text at h
  cases h with
  | loneMinus h =>
    have hc := isIdentStart_or_isDigit_or_mark hwritten htext
    exact absurd hc (by decide)
  | @wordInNumber _ _ _ n c h hc =>
    rcases eq_int_of_integer? hwritten (htext ▸ h) with ⟨l, rfl⟩
    have hword : isIdentRest c = false := hends c rfl
    rw [isIdentRest_of_isIdentStart hc] at hword
    cases hword
  | @outOfRange _ _ _ n h hn =>
    rcases eq_int_of_integer? hwritten (htext ▸ h) with ⟨l, rfl⟩
    rw [Token.text] at htext
    have hvalue := int32?_eq_some_iff.mp l.denotes
    rw [htext, h, Option.some.injEq] at hvalue
    have hlo := l.value.le_toInt
    have hhi := l.value.toInt_lt
    omega
  | @stray _ _ c hstart hdigit hmark =>
    rcases isIdentStart_or_isDigit_or_mark hwritten htext with h | h | h
    · exact ne_true_of_eq_false hstart h
    · exact ne_true_of_eq_false hdigit h
    · exact hmark (List.mem_cons_of_mem _ h)

/-- The runs of a text that spells lexemes are not malformed, whatever comes after it. -/
theorem runsAfter_of_spells {offset : Nat} {cs rest : List Char} {lexemes : List Lexeme}
    (h : Spells offset cs lexemes rest) (before : List Char) :
    ∃ earlier, (∀ run ∈ earlier, ¬ run.Malformed) ∧
      runsAfter before (cs ++ rest) = earlier ++ runsAfter (before ++ cs) rest := by
  induction h generalizing before with
  | nil offset rest => exact ⟨[], nofun, by rw [List.append_nil]; rfl⟩
  | @blank offset c cs rest lexemes hc h ih =>
    rcases ih (before ++ [c]) with ⟨earlier, hearlier, hruns⟩
    refine ⟨earlier, hearlier, ?_⟩
    rw [List.cons_append, runsAfter, if_pos hc, hruns, List.append_assoc, List.singleton_append]
  | @token offset token cs rest lexemes hwritten hends h ih =>
    rcases ih (before ++ token.text.toList) with ⟨earlier, hearlier, hruns⟩
    rcases Token.exists_head hwritten with ⟨c, ds, htext, hblank⟩
    have hfirst : first before c (ds ++ (cs ++ rest)) = ⟨before, token.text.toList, cs ++ rest⟩ :=
      first_of_written hwritten hends (by rw [htext, List.cons_append])
    refine ⟨⟨before, token.text.toList, cs ++ rest⟩ :: earlier, ?_, ?_⟩
    · exact List.forall_mem_cons.mpr ⟨not_malformed_of_written hwritten hends, hearlier⟩
    · rw [List.append_assoc, htext, List.cons_append, runsAfter, if_neg (ne_true_of_eq_false hblank), hfirst]
      dsimp only
      rw [hruns, List.append_assoc, List.cons_append, htext]

end

end Run

end Signatures
