import Mathlib.Data.List.TakeWhile
import Signatures.Proofs.Lexeme.Spelling

/-!
# Words and blanks

A text that is cut into lexemes is laid out as words with blanks between them, in one way only. The words
are its lexemes at their places, and nothing but blanks stands outside them. Whatever is laid out so that no
letter, digit or `_` follows a name or a literal is cut into these words.
-/

namespace Signatures

open Text

theorem Text.append_eq_append_cons {cs ds before after : List Char} {c : Char}
    (h : cs ++ ds = before ++ c :: after) :
    (∃ later, cs = before ++ c :: later) ∨ ∃ earlier, before = cs ++ earlier ∧ ds = earlier ++ c :: after := by
  rcases List.append_eq_append_iff.mp h with hsecond | ⟨later, hcs, hds⟩
  · exact .inr hsecond
  · cases later with
    | nil => exact .inr ⟨[], by simpa using hcs.symm, by simpa using hds.symm⟩
    | cons d later =>
      cases hds
      exact .inl ⟨later, hcs⟩

theorem Lexeme.Spells.after_blanks {offset : Nat} {blanks cs rest : List Char} {lexemes : List Lexeme}
    (hblanks : ∀ b ∈ blanks, isBlank b = true)
    (h : Lexeme.Spells (offset + byteSize blanks) cs lexemes rest) :
    Lexeme.Spells offset (blanks ++ cs) lexemes rest := by
  induction blanks generalizing offset with
  | nil => exact h
  | cons b blanks ih =>
    rw [List.forall_mem_cons] at hblanks
    refine .blank hblanks.1 (ih hblanks.2 ?_)
    rwa [byteSize_cons, ← Nat.add_assoc] at h

/-- A text as words, each with the blanks before it, and the blanks behind the last word. -/
inductive Layout where
  | finish (blanks : List Char)
  | word (blanks : List Char) (token : Token) (rest : Layout)

namespace Layout

def text : Layout → List Char
  | finish blanks => blanks
  | word blanks token rest => blanks ++ (token.text.toList ++ rest.text)

def lexemes (offset : Nat) : Layout → List Lexeme
  | finish _ => []
  | word blanks token rest =>
    let start := offset + byteSize blanks
    let stop := start + byteSize token.text.toList
    ⟨token, ⟨start, stop⟩⟩ :: rest.lexemes stop

/-- The blanks are blank, the names are identifiers, and no letter, digit or `_` stands directly behind a
name or a literal. -/
def Spaced : Layout → Prop
  | finish blanks => ∀ b ∈ blanks, isBlank b = true
  | word blanks token rest =>
    (∀ b ∈ blanks, isBlank b = true) ∧ token.Written ∧ token.EndsBefore rest.text ∧ rest.Spaced

def indent (c : Char) : Layout → Layout
  | finish blanks => finish (c :: blanks)
  | word blanks token rest => word (c :: blanks) token rest

variable {layout other : Layout} {offset : Nat} {c : Char}

theorem text_indent (c : Char) (layout : Layout) : (layout.indent c).text = c :: layout.text := by
  cases layout <;> rfl

theorem lexemes_indent (offset : Nat) (c : Char) (layout : Layout) :
    (layout.indent c).lexemes offset = layout.lexemes (offset + c.utf8Size) := by
  cases layout with
  | finish blanks => rfl
  | word blanks token rest => simp only [indent, lexemes, byteSize_cons, Nat.add_assoc]

theorem Spaced.indent (h : layout.Spaced) (hc : isBlank c = true) : (layout.indent c).Spaced := by
  cases layout with
  | finish blanks => exact List.forall_mem_cons.mpr ⟨hc, h⟩
  | word blanks token rest => exact ⟨List.forall_mem_cons.mpr ⟨hc, h.1⟩, h.2⟩

/-- The text of a layout spells its words. -/
theorem Spaced.spells (h : layout.Spaced) (offset : Nat) :
    Lexeme.Spells offset layout.text (layout.lexemes offset) [] := by
  induction layout generalizing offset with
  | finish blanks =>
    have hspells := Lexeme.Spells.after_blanks h (.nil (offset + byteSize blanks) [])
    rwa [List.append_nil] at hspells
  | word blanks token rest ih =>
    rcases h with ⟨hblanks, hwritten, hends, hrest⟩
    refine .after_blanks hblanks (.token hwritten ?_ (ih hrest _))
    rwa [List.append_nil]

theorem exists_of_spells {cs : List Char} {lexemes : List Lexeme}
    (h : Lexeme.Spells offset cs lexemes []) :
    ∃ layout : Layout, layout.Spaced ∧ layout.text = cs ∧ layout.lexemes offset = lexemes := by
  generalize hrest : ([] : List Char) = rest at h
  induction h with
  | nil offset rest => exact ⟨.finish [], nofun, rfl, rfl⟩
  | @blank offset c cs rest lexemes hc h ih =>
    rcases ih hrest with ⟨layout, hspaced, rfl, rfl⟩
    exact ⟨layout.indent c, hspaced.indent hc, text_indent c layout, lexemes_indent offset c layout⟩
  | @token offset token cs rest lexemes hwritten hends h ih =>
    subst hrest
    rcases ih rfl with ⟨layout, hspaced, rfl, rfl⟩
    rw [List.append_nil] at hends
    exact ⟨.word [] token layout, ⟨nofun, hwritten, hends, hspaced⟩, rfl, rfl⟩

theorem Spaced.takeWhile_text {blanks : List Char} {token : Token} {rest : Layout}
    (h : (word blanks token rest).Spaced) :
    (word blanks token rest).text.takeWhile isBlank = blanks ∧
      (word blanks token rest).text.dropWhile isBlank = token.text.toList ++ rest.text := by
  rcases h with ⟨hblanks, hwritten, -, -⟩
  rcases Token.exists_head hwritten with ⟨c, cs, htext, hc⟩
  have hhead : ∀ d ∈ (token.text.toList ++ rest.text).head?, isBlank d = false := by
    rw [htext]
    rintro d ⟨⟩
    exact hc
  exact ⟨takeWhile_append_of_head hblanks hhead, dropWhile_append_of_head hblanks hhead⟩

theorem Spaced.text_ne_blanks {blanks blanks' : List Char} {token : Token} {rest : Layout}
    (h : (word blanks token rest).Spaced) (hblanks : ∀ b ∈ blanks', isBlank b = true) :
    (word blanks token rest).text ≠ blanks' := by
  intro heq
  have hdrop := h.takeWhile_text.2
  rw [heq, List.dropWhile_eq_nil_iff.mpr hblanks] at hdrop
  exact Token.text_ne_nil h.2.1 (List.append_eq_nil_iff.mp hdrop.symm).1

/-- A text is laid out in one way only. -/
theorem Spaced.eq_of_text_eq (h : layout.Spaced) (hother : other.Spaced)
    (htext : layout.text = other.text) : layout = other := by
  induction layout generalizing other with
  | finish blanks =>
    cases other with
    | finish blanks' => exact congrArg finish htext
    | word blanks' token rest => exact absurd htext.symm (hother.text_ne_blanks h)
  | word blanks token rest ih =>
    cases other with
    | finish blanks' => exact absurd htext (h.text_ne_blanks hother)
    | word blanks' token' rest' =>
      have hsplit := h.takeWhile_text
      rw [htext, hother.takeWhile_text.1, hother.takeWhile_text.2] at hsplit
      rcases hsplit with ⟨rfl, hwords⟩
      rcases h with ⟨-, hwritten, hends, hrest⟩
      rcases hother with ⟨-, hwritten', hends', hrest'⟩
      -- Both tokens are the one that is read at the start of the same text.
      rcases Token.exists_head hwritten with ⟨c, cs, hcs, -⟩
      have hhead : c :: (cs ++ rest.text) = token.text.toList ++ rest.text := by rw [hcs]; rfl
      have hread : Lexeme.readToken 0 c (cs ++ rest.text) = .ok (token, rest.text) :=
        Lexeme.readToken_of_written hwritten hends hhead
      rw [Lexeme.readToken_of_written hwritten' hends' (hhead.trans hwords.symm)] at hread
      rcases Prod.mk.inj (Except.ok.inj hread) with ⟨rfl, hrests⟩
      rw [ih hrest hrest' hrests.symm]

theorem le_start_of_mem_lexemes {lexeme : Lexeme} (h : lexeme ∈ layout.lexemes offset) :
    offset ≤ lexeme.span.start := by
  induction layout generalizing offset with
  | finish blanks => cases h
  | word blanks token rest ih =>
    rcases List.mem_cons.mp h with rfl | h
    · exact Nat.le_add_right _ _
    · have hstop := ih h
      omega

theorem pairwise_lexemes (layout : Layout) (offset : Nat) :
    (layout.lexemes offset).Pairwise fun first second => first.span.stop ≤ second.span.start := by
  induction layout generalizing offset with
  | finish blanks => exact .nil
  | word blanks token rest ih =>
    exact List.pairwise_cons.mpr ⟨fun second hmem => le_start_of_mem_lexemes hmem, ih _⟩

theorem Spaced.start_lt_stop (h : layout.Spaced) :
    ∀ lexeme ∈ layout.lexemes offset, lexeme.span.start < lexeme.span.stop := by
  induction layout generalizing offset with
  | finish blanks => nofun
  | word blanks token rest ih =>
    rcases Token.exists_head h.2.1 with ⟨c, cs, htext, -⟩
    refine List.forall_mem_cons.mpr ⟨?_, ih h.2.2.2⟩
    have hc := c.utf8Size_pos
    simp only [htext, byteSize_cons]
    omega

theorem slice?_of_mem_lexemes (before : List Char) {lexeme : Lexeme}
    (h : lexeme ∈ layout.lexemes (byteSize before)) :
    slice? (before ++ layout.text) lexeme.span.start lexeme.span.stop =
      some lexeme.token.text.toList := by
  induction layout generalizing before with
  | finish blanks => cases h
  | word blanks token rest ih =>
    rw [lexemes, ← byteSize_append] at h
    rcases List.mem_cons.mp h with rfl | h
    · rw [text, ← List.append_assoc]
      exact slice?_middle (before ++ blanks) token.text.toList rest.text
    · rw [← byteSize_append] at h
      have hslice := ih _ h
      rwa [List.append_assoc, List.append_assoc] at hslice

theorem Spaced.mem_lexeme_or_isBlank (h : layout.Spaced) (offset : Nat) {before after : List Char}
    (htext : layout.text = before ++ c :: after) :
    (∃ lexeme ∈ layout.lexemes offset,
      lexeme.span.start ≤ offset + byteSize before ∧ offset + byteSize before < lexeme.span.stop) ∨
      isBlank c = true := by
  induction layout generalizing offset before with
  | finish blanks =>
    change blanks = _ at htext
    exact .inr (h c (htext ▸ List.mem_append_right _ List.mem_cons_self))
  | word blanks token rest ih =>
    rcases append_eq_append_cons htext with ⟨later, hblanks⟩ | ⟨earlier, rfl, hwords⟩
    · exact .inr (h.1 c (hblanks ▸ List.mem_append_right _ List.mem_cons_self))
    rcases append_eq_append_cons hwords with ⟨later, hword⟩ | ⟨earlier, rfl, hrest⟩
    · refine .inl ⟨_, List.mem_cons_self, ?_⟩
      have hc := c.utf8Size_pos
      simp only [hword, byteSize_append, byteSize_cons]
      omega
    · rcases ih h.2.2.2 _ hrest with ⟨lexeme, hmem, hstart, hstop⟩ | hblank
      · refine .inl ⟨lexeme, List.mem_cons_of_mem _ hmem, ?_⟩
        simp only [byteSize_append]
        omega
      · exact .inr hblank

end Layout

open Lexeme Text.Decimal

/-- A text that is cut into lexemes consists of them and of blanks: they are not empty, one ends before the
next starts, each is the slice of the text at its span, and all that stands outside is blank. There is one
layout with these words, and every layout in which no letter, digit or `_` follows a name or a literal is
cut into its words. The literals among them are the integers of 32 bits, with any leading zeros. -/
theorem Lexeme.scan_lossless (source : String) :
    (∀ lexemes, scan source = .ok lexemes →
      (∀ lexeme ∈ lexemes, lexeme.span.start < lexeme.span.stop ∧
        slice? source.toList lexeme.span.start lexeme.span.stop = some lexeme.token.text.toList) ∧
      lexemes.Pairwise (fun first second => first.span.stop ≤ second.span.start) ∧
      (∀ before c after, source.toList = before ++ c :: after →
        (∃ lexeme ∈ lexemes,
          lexeme.span.start ≤ byteSize before ∧ byteSize before < lexeme.span.stop) ∨
          isBlank c = true) ∧
      ∃ layout : Layout, layout.Spaced ∧ layout.text = source.toList ∧ layout.lexemes 0 = lexemes ∧
        ∀ other : Layout, other.Spaced → other.text = source.toList → other = layout) ∧
      (∀ layout : Layout, layout.Spaced → layout.text = source.toList →
        scan source = .ok (layout.lexemes 0)) ∧
      ∀ text : List Char, IsInt32 text ↔ ∃ l : Literal, l.text.toList = text := by
  refine ⟨?_, ?_, ?_⟩
  · intro lexemes hscan
    rcases Layout.exists_of_spells (scanFrom_eq_ok_iff.mp hscan) with ⟨layout, hspaced, htext, rfl⟩
    rw [← htext]
    refine ⟨fun lexeme hmem => ⟨hspaced.start_lt_stop lexeme hmem, ?_⟩, layout.pairwise_lexemes 0, ?_, ?_⟩
    · exact Layout.slice?_of_mem_lexemes [] hmem
    · intro before c after hsplit
      simpa using hspaced.mem_lexeme_or_isBlank 0 hsplit
    · exact ⟨layout, hspaced, rfl, rfl, fun other hother heq => hother.eq_of_text_eq hspaced heq⟩
  · intro layout hspaced htext
    have hspells := hspaced.spells 0
    rw [htext] at hspells
    exact scanFrom_eq_ok_iff.mpr hspells
  · intro text
    constructor
    · intro h
      rcases isInt32_iff.mp h with ⟨value, hvalue⟩
      exact ⟨⟨String.ofList text, value, by rwa [String.toList_ofList]⟩, String.toList_ofList⟩
    · rintro ⟨l, rfl⟩
      exact l.isInt32_text

/-- A sign belongs to the literal behind it, whatever stands before it. -/
example : (scan "5-3").toOption.map (List.map fun lexeme => (lexeme.token.text, lexeme.span)) =
    some [("5", ⟨0, 1⟩), ("-3", ⟨1, 3⟩)] := by
  decide +kernel

end Signatures
