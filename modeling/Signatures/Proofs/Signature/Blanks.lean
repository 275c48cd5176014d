import Signatures.Proofs.Signature.Parsing

/-!
# Blanks around a signature

No token holds a blank, so the blanks at the two ends of a text belong to none of its tokens, and the
text has the same signature without them.
-/

namespace Signatures

open Text

theorem Token.EndsBefore.of_append {token : Token} {cs ds : List Char}
    (h : token.EndsBefore (cs ++ ds)) : token.EndsBefore cs := by
  have hends := h.of_rest fun _ => noWord_nil
  rwa [List.append_nil] at hends

namespace Lexeme

section

variable {offset : Nat} {blanks cs rest : List Char} {lexemes : List Lexeme}

theorem Spells.eq_nil (h : Spells offset [] lexemes rest) : lexemes = [] := by
  generalize hall : ([] : List Char) = all at h
  cases h with
  | nil offset rest => rfl
  | blank hc h => cases hall
  | token hwritten hends h =>
    rcases List.append_eq_nil_iff.mp hall.symm with ⟨htext, -⟩
    exact absurd htext (Token.text_ne_nil hwritten)

theorem Spells.of_blank {c : Char} (h : Spells offset (c :: cs) lexemes rest) (hc : isBlank c = true) :
    Spells (offset + c.utf8Size) cs lexemes rest := by
  generalize hall : c :: cs = all at h
  cases h with
  | nil offset rest => cases hall
  | blank hc' h =>
    cases hall
    exact h
  | token hwritten hends h =>
    rcases Token.exists_head hwritten with ⟨d, ds, htext, hd⟩
    rw [htext, List.cons_append] at hall
    cases hall
    rw [hc] at hd
    cases hd

theorem Spells.of_leading (h : Spells offset (blanks ++ cs) lexemes rest)
    (hblanks : ∀ c ∈ blanks, isBlank c = true) : Spells (offset + byteSize blanks) cs lexemes rest := by
  induction blanks generalizing offset with
  | nil => exact h
  | cons c blanks ih =>
    have hrest := h.of_blank (hblanks c List.mem_cons_self)
    have htail := ih hrest fun d hd => hblanks d (List.mem_cons_of_mem c hd)
    rwa [Nat.add_assoc] at htail

theorem Spells.of_trailing (h : Spells offset (cs ++ blanks) lexemes [])
    (hblanks : ∀ c ∈ blanks, isBlank c = true) : Spells offset cs lexemes [] := by
  generalize hall : cs ++ blanks = all at h
  generalize hrest : ([] : List Char) = rest at h
  induction h generalizing cs with
  | nil offset rest =>
    rw [(List.append_eq_nil_iff.mp hall).1]
    exact .nil offset rest
  | @blank offset c tail rest lexemes hc h ih =>
    cases cs with
    | nil =>
      -- All that is left is blank, so it spells nothing.
      subst hrest
      have hspells : Spells offset ((c :: tail) ++ []) lexemes [] := by
        rw [List.append_nil]
        exact .blank hc h
      rw [List.nil_append] at hall
      rw [(hspells.of_leading (hall ▸ hblanks)).eq_nil]
      exact .nil offset []
    | cons d cs =>
      rw [List.cons_append] at hall
      cases hall
      exact .blank hc (ih rfl hrest)
  | @token offset token tail rest lexemes hwritten hends h ih =>
    subst hrest
    -- The token ends before the blanks, since it holds none of them.
    obtain ⟨between, rfl, rfl⟩ : ∃ between, cs = token.text.toList ++ between ∧
        tail = between ++ blanks := by
      rcases List.append_eq_append_iff.mp hall with ⟨shared, htext, hshared⟩ | ⟨between, hcs, htail⟩
      · have hnil : shared = [] := by
          apply List.eq_nil_iff_forall_not_mem.mpr
          intro c hc
          have hblank := hblanks c (hshared ▸ List.mem_append_left _ hc)
          have hmem : c ∈ token.text.toList := htext ▸ List.mem_append_right _ hc
          rw [Token.isBlank_eq_false_of_mem_text hwritten c hmem] at hblank
          cases hblank
        subst hnil
        exact ⟨[], by simpa using htext.symm, by simpa using hshared.symm⟩
      · exact ⟨between, hcs, htail⟩
    rw [List.append_nil] at hends
    refine .token hwritten ?_ (ih rfl rfl)
    rw [List.append_nil]
    exact hends.of_append

end

end Lexeme

open Lexeme

theorem Shape.parse_of_blanks {source : String} {shape : Shape} {leading cs trailing : List Char}
    (hsource : source.toList = leading ++ (cs ++ trailing)) (hleading : ∀ c ∈ leading, isBlank c = true)
    (htrailing : ∀ c ∈ trailing, isBlank c = true) (h : Shape.parse source = .ok shape) :
    Shape.parse (String.ofList cs) = .ok shape := by
  rcases Shape.parse_eq_ok_iff.mp h with ⟨lexemes, hscan, halone, htokens⟩
  have hspells : Spells 0 source.toList lexemes [] := scanFrom_eq_ok_iff.mp hscan
  rw [hsource] at hspells
  have hmiddle := (hspells.of_leading hleading).of_trailing htrailing
  apply Shape.parse_of_spellsTokens halone
  rw [String.toList_ofList, htokens]
  exact hmiddle.spellsTokens

theorem Catalog.parse_of_blanks {catalog : Catalog} {source : String} {s : Signature}
    {leading cs trailing : List Char} (hsource : source.toList = leading ++ (cs ++ trailing))
    (hleading : ∀ c ∈ leading, isBlank c = true) (htrailing : ∀ c ∈ trailing, isBlank c = true)
    (h : catalog.parse source = .ok s) : catalog.parse (String.ofList cs) = .ok s := by
  rcases Catalog.parse_eq_ok_iff.mp h with ⟨shape, hshape, hs⟩
  exact Catalog.parse_eq_ok_iff.mpr ⟨shape, Shape.parse_of_blanks hsource hleading htrailing hshape, hs⟩

end Signatures
