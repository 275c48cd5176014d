import Signatures.Proofs.Lexeme.RunFault

/-!
# Literals that are too large

The first word of a text that is no lexeme may be an integer that needs more than 32 bits. Without a sign it
is named in full but marked at its first digit only. With a sign it is not named at all: its first digit is
reported as a character that starts no token, and the sign is not marked. So the place of the error is never
the literal.
-/

namespace Signatures

open Text Text.Decimal

/-- Behind lexemes and blanks stands an integer literal that does not fit in 32 bits. It is as long as it can
be, and no letter or `_` follows it. -/
structure Oversized (source before literal after : List Char) : Prop where
  source_eq : source = before ++ (literal ++ after)
  spells : ∃ lexemes, Lexeme.Spells 0 before lexemes (literal ++ after)
  outOfRange : ∃ n, integer? literal = some n ∧ (n < -2147483648 ∨ 2147483647 < n)
  noWord : NoWord after

namespace Text.Decimal

theorem not_isInt32_of_outOfRange {cs : List Char} {n : Int} (h : integer? cs = some n)
    (hn : n < -2147483648 ∨ 2147483647 < n) : ¬ IsInt32 cs := by
  intro hint
  rcases isInt32_iff.mp hint with ⟨v, hv⟩
  have hvalue := int32?_eq_some_iff.mp hv
  rw [h, Option.some.injEq] at hvalue
  have hlo := v.le_toInt
  have hhi := v.toInt_lt
  omega

theorem exists_cons_cons_of_not_isInt32 {digits : List Char} (h : IsDigits digits)
    (hvalue : ¬ IsInt32 digits) : ∃ c d rest, digits = c :: d :: rest := by
  rcases List.exists_cons_of_ne_nil h.1 with ⟨c, rest, rfl⟩
  cases rest with
  | cons d rest => exact ⟨c, d, rest, rfl⟩
  | nil =>
    have hc := toNat_of_isDigit (h.2 c List.mem_cons_self)
    refine absurd (.plain h ?_) hvalue
    rw [Nat.ofDigitChars_cons, Nat.ofDigitChars_nil]
    omega

end Text.Decimal

theorem Text.shown_of_isDigit {c : Char} (h : c.isDigit = true) : shown c = [c] := by
  have hall : ∀ n : Fin 10, shown (Char.ofNat (48 + n)) = [Char.ofNat (48 + n)] := by decide +kernel
  have hbounds := toNat_of_isDigit h
  have hc : Char.ofNat (48 + (c.toNat - 48)) = c := by
    rw [Nat.add_sub_cancel' hbounds.1, Char.ofNat_toNat]
  have hdigit := hall ⟨c.toNat - 48, by omega⟩
  rwa [hc] at hdigit

theorem LexFault.message_of_isDigit {c : Char} (h : c.isDigit = true) (span : Span) :
    (unrecognized c span).message = "unrecognized character '" ++ String.ofList [c] ++ "'" := by
  change "unrecognized character '" ++ String.ofList (shown c) ++ "'" = _
  rw [shown_of_isDigit h]

namespace Oversized

variable {source before literal after : List Char}

theorem isBlank_head {c : Char} (h : c = '-' ∨ c.isDigit = true) : isBlank c = false := by
  rcases h with rfl | hdigit
  · decide
  · exact isBlank_eq_false_of_isIdentRest (isIdentRest_of_isDigit hdigit)

/-- The fault of the literal is the fault of the text. -/
theorem scanFrom_eq_error {fault : LexFault} {c : Char} {cs : List Char}
    (h : Oversized source before literal after) (hliteral : literal = c :: cs)
    (hc : c = '-' ∨ c.isDigit = true) (hfault : Run.Fault ⟨before, literal, after⟩ fault) :
    Lexeme.scanFrom 0 source = .error fault := by
  rcases h.spells with ⟨lexemes, hspells⟩
  rw [h.source_eq]
  subst hliteral
  exact hfault.scanFrom rfl rfl (isBlank_head hc) hspells

end Oversized

namespace Catalog

variable {source : String} {before literal after : List Char}

/-- A literal that is too large is an error of the text. Without a sign its text is in the message, and its
first digit is marked. With a sign the message shows the first digit alone, and all digits are marked but
not the sign. -/
theorem parse_oversized (catalog : Catalog) (h : Oversized source.toList before literal after) :
    ((IsDigits literal ∧
        catalog.parse source = .error (.lex
          ("integer literal '" ++ String.ofList literal ++ "' does not fit in 32 bits")
          ⟨byteSize before, byteSize before + 1⟩)) ∨
      ∃ d digits, literal = '-' :: d :: digits ∧
        catalog.parse source = .error (.lex ("unrecognized character '" ++ String.ofList [d] ++ "'")
          ⟨byteSize before + 1, byteSize before + byteSize literal⟩)) ∧
      ∀ message span, catalog.parse source = .error (.lex message span) →
        span ≠ ⟨byteSize before, byteSize before + byteSize literal⟩ := by
  rcases h.outOfRange with ⟨n, hliteral, hn⟩
  have hvalue := not_isInt32_of_outOfRange hliteral hn
  rcases integer?_eq_some_iff.mp hliteral with ⟨hdigits, -⟩ | ⟨digits, rfl, hdigits, -⟩
  · rcases exists_cons_cons_of_not_isInt32 hdigits hvalue with ⟨c, d, rest, rfl⟩
    have hscan := h.scanFrom_eq_error rfl (.inr (hdigits.2 c List.mem_cons_self))
      (.outOfRange hdigits hvalue h.noWord)
    have hparse := @parse_of_scan_eq_error catalog source _ hscan
    refine ⟨.inl ⟨hdigits, hparse⟩, ?_⟩
    intro message span hother
    rw [hparse] at hother
    cases hother
    have hc := c.utf8Size_pos
    have hd := d.utf8Size_pos
    simp only [LexFault.span, byteSize_cons, ne_eq, Span.mk.injEq, true_and]
    omega
  · rcases List.exists_cons_of_ne_nil hdigits.1 with ⟨d, rest, rfl⟩
    have hscan := h.scanFrom_eq_error rfl (.inl rfl) (.negative hdigits hvalue h.noWord)
    have hsize : byteSize before + 1 + byteSize (d :: rest) =
        byteSize before + byteSize ('-' :: d :: rest) := by
      rw [byteSize_cons '-', Run.utf8Size_minus, Nat.add_assoc]
    have hparse := @parse_of_scan_eq_error catalog source _ hscan
    rw [Error.ofLex, LexFault.message_of_isDigit (hdigits.2 d List.mem_cons_self)] at hparse
    simp only [LexFault.span, hsize] at hparse
    refine ⟨.inr ⟨d, rest, rfl, hparse⟩, ?_⟩
    intro message span hother
    rw [hparse] at hother
    rw [← (Error.lex.inj (Except.error.inj hother)).2]
    simp

/-- A literal with a sign, behind other words and a blank: all but its sign is marked, and it is not named. -/
theorem parse_oversized_negative :
    Oversized "map<7, -2147483649>".toList "map<7, ".toList "-2147483649".toList ">".toList ∧
      builtin.parse "map<7, -2147483649>" = .error (.lex "unrecognized character '2'" ⟨8, 18⟩) := by
  have hscan : Lexeme.scanFrom 0 "map<7, ".toList = .ok [⟨.ident "map", ⟨0, 3⟩⟩, ⟨.lt, ⟨3, 4⟩⟩,
      ⟨.int ⟨"7", 7, by decide⟩, ⟨4, 5⟩⟩, ⟨.comma, ⟨5, 6⟩⟩] := eq_ok_of_toOption (by decide +kernel)
  have h : Oversized "map<7, -2147483649>".toList "map<7, ".toList "-2147483649".toList ">".toList :=
    { source_eq := rfl
      spells := ⟨_, (Lexeme.scanFrom_eq_ok_iff.mp hscan).of_rest fun _ => noWord_cons rfl _⟩
      outOfRange := ⟨-2147483649, by decide, .inl (by decide)⟩
      noWord := noWord_cons rfl [] }
  rcases (parse_oversized builtin h).1 with ⟨hdigits, -⟩ | ⟨d, digits, hliteral, hparse⟩
  · exact absurd (hdigits.2 '-' List.mem_cons_self) (by decide)
  · cases hliteral
    exact ⟨h, hparse⟩

/-- Neither the literal nor its place is reported. -/
theorem oversized_not_reported :
    Oversized "-2147483649".toList [] "-2147483649".toList [] ∧
      builtin.parse "-2147483649" ≠
        .error (.lex "integer literal '-2147483649' does not fit in 32 bits" ⟨0, 11⟩) := by
  refine ⟨⟨rfl, ⟨[], .nil 0 _⟩, ⟨-2147483649, by decide, .inl (by decide)⟩, noWord_nil⟩, ?_⟩
  intro hparse
  have hspan := congrArg (fun result => match result with
    | .ok _ => none
    | .error error => Error.span? error) hparse
  exact absurd hspan (by decide +kernel)

end Catalog

end Signatures
