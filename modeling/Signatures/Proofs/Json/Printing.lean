import Signatures.Json.Printer
import Signatures.Proofs.Text.Parts

/-!
# A printed value can be told from all others

Different JSON values are printed differently. More than that, a printed value can be told from every other with
anything behind it that does not go on with a number; so it is where it stands within a larger value, before a
comma or the end of a line.
-/

namespace Signatures.Json

/-- A rest that does not go on with a number. -/
def EndsNumber (rest : List Char) : Prop := ∀ c ∈ rest.head?, c.isDigit = false ∧ c ≠ '.'

/-- Something can be told by its text from everything else, whatever comes behind that ends a number. -/
def Readable {α : Type} (text : α → String) (a : α) : Prop :=
  ∀ b rest rest', EndsNumber rest → EndsNumber rest' →
    (text a).toList ++ rest = (text b).toList ++ rest' → a = b ∧ rest = rest'

theorem endsNumber_cons {c : Char} (hdigit : c.isDigit = false) (hpoint : c ≠ '.') (rest : List Char) :
    EndsNumber (c :: rest) := by
  intro d hd
  rw [List.head?_cons, Option.mem_some_iff] at hd
  exact hd ▸ ⟨hdigit, hpoint⟩

section Quoted

def escaped : List Char := '"' :: '\\' :: (List.range 32).map Char.ofNat

theorem charText_of_not_escaped {c : Char} (h : c ∉ escaped) : charText c = [c] := by
  have hcontrol : ¬ c.toNat < 32 := by
    intro hlt
    have hmem : c ∈ (List.range 32).map Char.ofNat :=
      List.mem_map.mpr ⟨c.toNat, List.mem_range.mpr hlt, Char.ofNat_toNat c⟩
    exact h (List.mem_cons_of_mem _ (List.mem_cons_of_mem _ hmem))
  unfold charText
  split
  case h_8 => rw [if_neg hcontrol]
  all_goals exact absurd (by decide) h

theorem head?_charText_of_escaped {c : Char} (hc : c ∈ escaped) : (charText c).head? = some '\\' := by
  have hall : (escaped.all fun c => (charText c).head? == some '\\') = true := by decide +kernel
  exact beq_iff_eq.mp (List.all_eq_true.mp hall c hc)

theorem eq_of_isPrefix_charText {c d : Char} (hc : c ∈ escaped) (hd : d ∈ escaped)
    (h : charText c <+: charText d) : c = d := by
  have hall : (escaped.all fun c => escaped.all fun d => !(charText c).isPrefixOf (charText d) || c == d) = true := by
    decide +kernel
  have hpair := List.all_eq_true.mp (List.all_eq_true.mp hall c hc) d hd
  rw [List.isPrefixOf_iff_prefix.mpr h] at hpair
  exact beq_iff_eq.mp hpair

theorem head?_charText (c : Char) :
    charText c = [c] ∧ c ≠ '\\' ∧ c ≠ '"' ∨ c ∈ escaped ∧ (charText c).head? = some '\\' := by
  by_cases h : c ∈ escaped
  · exact .inr ⟨h, head?_charText_of_escaped h⟩
  · refine .inl ⟨charText_of_not_escaped h, ?_, ?_⟩ <;> rintro rfl <;> exact h (by decide)

theorem charText_inj {c d : Char} {rest rest' : List Char} (h : charText c ++ rest = charText d ++ rest') :
    c = d ∧ rest = rest' := by
  suffices hcd : c = d by
    subst hcd
    exact ⟨rfl, List.append_cancel_left h⟩
  have hhead := congrArg List.head? h
  rcases head?_charText c with ⟨hc, hne, -⟩ | ⟨hc, hslash⟩ <;>
    rcases head?_charText d with ⟨hd, hne', -⟩ | ⟨hd, hslash'⟩
  · simpa [hc, hd] using hhead
  · exact absurd (by simpa [hc, List.head?_append, hslash'] using hhead) hne
  · exact absurd (by simpa [hd, List.head?_append, hslash] using hhead.symm) hne'
  · have hprefix : charText c <+: charText d ++ rest' := h ▸ List.prefix_append _ _
    rcases List.prefix_or_prefix_of_prefix hprefix (List.prefix_append _ _) with hle | hle
    · exact eq_of_isPrefix_charText hc hd hle
    · exact (eq_of_isPrefix_charText hd hc hle).symm

/-- A text ends at the first quote that no backslash stands before. -/
theorem flatMap_charText_inj {cs ds rest rest' : List Char}
    (h : cs.flatMap charText ++ '"' :: rest = ds.flatMap charText ++ '"' :: rest') : cs = ds ∧ rest = rest' := by
  have hquote (c : Char) (more rest : List Char) : charText c ++ more ≠ '"' :: rest := by
    intro h
    have hhead := congrArg List.head? h
    rcases head?_charText c with ⟨hc, -, hne⟩ | ⟨-, hslash⟩
    · exact hne (by simpa [hc] using hhead)
    · simp [List.head?_append, hslash] at hhead
  induction cs generalizing ds with
  | nil =>
    cases ds with
    | nil => exact ⟨rfl, (List.cons.inj h).2⟩
    | cons d ds =>
      rw [List.flatMap_cons, List.append_assoc] at h
      exact absurd h.symm (hquote d _ rest)
  | cons c cs ih =>
    rw [List.flatMap_cons, List.append_assoc] at h
    cases ds with
    | nil => exact absurd h (hquote c _ rest')
    | cons d ds =>
      rw [List.flatMap_cons, List.append_assoc] at h
      rcases charText_inj h with ⟨rfl, hrest⟩
      rcases ih hrest with ⟨rfl, rfl⟩
      exact ⟨rfl, rfl⟩

theorem quoted_inj {value other : String} {rest rest' : List Char}
    (h : (quoted value).toList ++ rest = (quoted other).toList ++ rest') : value = other ∧ rest = rest' := by
  have htext (value : String) (rest : List Char) :
      (quoted value).toList ++ rest = '"' :: (value.toList.flatMap charText ++ '"' :: rest) := by
    simp [quoted]
  rw [htext, htext] at h
  rcases flatMap_charText_inj (List.cons.inj h).2 with ⟨hvalue, hrest⟩
  exact ⟨String.toList_inj.mp hvalue, hrest⟩

end Quoted

section Number

/-- A number is written as a sign, its whole digits and, behind a point, as many digits as it has places. -/
theorem exists_numberText (mantissa : Int) (places : Nat) : ∃ whole fraction : List Char,
    (numberText mantissa places).toList =
      (if mantissa < 0 then ['-'] else []) ++ (whole ++ if places = 0 then [] else '.' :: fraction) ∧
    whole ≠ [] ∧ (∀ c ∈ whole, c.isDigit = true) ∧ (∀ c ∈ fraction, c.isDigit = true) ∧
    fraction.length = places ∧ Nat.ofDigitChars 10 (whole ++ fraction) 0 = mantissa.natAbs := by
  have hdigit : ∀ c ∈ Nat.toDigits 10 mantissa.natAbs, c.isDigit = true := fun c hc =>
    Nat.isDigit_of_mem_toDigits (by decide) (by decide) hc
  have hvalue : Nat.ofDigitChars 10 (Nat.toDigits 10 mantissa.natAbs) 0 = mantissa.natAbs :=
    Nat.ofDigitChars_toDigits (by decide) (by decide)
  by_cases hplaces : places = 0
  · refine ⟨Nat.toDigits 10 mantissa.natAbs, [], ?_, List.ne_nil_of_length_pos Nat.length_toDigits_pos, hdigit,
      by simp, hplaces.symm, by rw [List.append_nil, hvalue]⟩
    rw [numberText, if_pos hplaces, if_pos hplaces, Int.toString_eq_repr, Int.repr_eq_if, List.append_nil]
    by_cases hneg : mantissa < 0
    · rw [if_neg (Int.not_le.mpr hneg), if_pos hneg, String.toList_append, Nat.toList_repr,
        show (-mantissa).toNat = mantissa.natAbs by omega]
      rfl
    · rw [if_pos (Int.not_lt.mp hneg), if_neg hneg, Nat.toList_repr, List.nil_append,
        show mantissa.toNat = mantissa.natAbs by omega]
  · let padded := List.replicate (places + 1 - (Nat.toDigits 10 mantissa.natAbs).length) '0' ++
      Nat.toDigits 10 mantissa.natAbs
    have hlength : places + 1 ≤ padded.length := by
      rw [List.length_append, List.length_replicate]
      omega
    have hpadded : ∀ c ∈ padded, c.isDigit = true := by
      intro c hc
      rcases List.mem_append.mp hc with hc | hc
      · rw [List.eq_of_mem_replicate hc]
        decide
      · exact hdigit c hc
    refine ⟨padded.take (padded.length - places), padded.drop (padded.length - places), ?_, ?_,
      fun c hc => hpadded c (List.mem_of_mem_take hc), fun c hc => hpadded c (List.mem_of_mem_drop hc), ?_, ?_⟩
    · rw [numberText, if_neg hplaces, if_neg hplaces]
      split <;> simp [padded]
    · rw [List.ne_nil_iff_length_pos, List.length_take]
      omega
    · rw [List.length_drop]
      omega
    · rw [List.take_append_drop, Nat.ofDigitChars_append, Nat.ofDigitChars_replicate_zero, Nat.mul_zero, hvalue]

theorem digits_inj {digits digits' rest rest' : List Char} (hdigits : ∀ c ∈ digits, c.isDigit = true)
    (hdigits' : ∀ c ∈ digits', c.isDigit = true) (hrest : ∀ c ∈ rest.head?, c.isDigit = false)
    (hrest' : ∀ c ∈ rest'.head?, c.isDigit = false) (h : digits ++ rest = digits' ++ rest') :
    digits = digits' ∧ rest = rest' := by
  have htake := congrArg (List.takeWhile Char.isDigit) h
  rw [Text.takeWhile_append_of_head hdigits hrest, Text.takeWhile_append_of_head hdigits' hrest'] at htake
  subst htake
  exact ⟨rfl, List.append_cancel_left h⟩

section Fraction

variable {places places' : Nat} {fraction fraction' rest rest' : List Char}

theorem isDigit_head?_fraction (hrest : EndsNumber rest) :
    ∀ c ∈ ((if places = 0 then [] else '.' :: fraction) ++ rest).head?, c.isDigit = false := by
  split
  · exact fun c hc => (hrest c hc).1
  · simp

theorem fraction_inj (hdigits : ∀ c ∈ fraction, c.isDigit = true) (hdigits' : ∀ c ∈ fraction', c.isDigit = true)
    (hlength : fraction.length = places) (hlength' : fraction'.length = places') (hrest : EndsNumber rest)
    (hend : EndsNumber rest')
    (h : (if places = 0 then [] else '.' :: fraction) ++ rest =
      (if places' = 0 then [] else '.' :: fraction') ++ rest') : fraction = fraction' ∧ rest = rest' := by
  split at h <;> split at h
  · next hzero hzero' =>
    rw [List.eq_nil_of_length_eq_zero (hlength.trans hzero), List.eq_nil_of_length_eq_zero (hlength'.trans hzero')]
    exact ⟨rfl, h⟩
  · exact absurd rfl (hrest '.' (by rw [List.nil_append] at h; simp [h])).2
  · exact absurd rfl (hend '.' (by rw [List.nil_append] at h; simp [← h])).2
  · exact digits_inj hdigits hdigits' (fun c hc => (hrest c hc).1) (fun c hc => (hend c hc).1)
      (List.cons.inj h).2

end Fraction

/-- A sign is told by the digit that stands where there is none. -/
theorem sign_inj {negative negative' : Prop} [Decidable negative] [Decidable negative'] {digits digits' : List Char}
    (hdigits : ∀ c ∈ digits.head?, c.isDigit = true) (hother : ∀ c ∈ digits'.head?, c.isDigit = true)
    (h : (if negative then ['-'] else []) ++ digits = (if negative' then ['-'] else []) ++ digits') :
    (negative ↔ negative') ∧ digits = digits' := by
  split at h <;> split at h
  · next hneg hneg' => exact ⟨iff_of_true hneg hneg', (List.cons.inj h).2⟩
  · exact absurd (hother '-' (by rw [List.nil_append] at h; simp [← h])) (by decide)
  · exact absurd (hdigits '-' (by rw [List.nil_append] at h; simp [h])) (by decide)
  · next hneg hneg' => exact ⟨iff_of_false hneg hneg', h⟩

theorem numberText_inj {mantissa mantissa' : Int} {places places' : Nat} {rest rest' : List Char}
    (hrest : EndsNumber rest) (hrest' : EndsNumber rest')
    (h : (numberText mantissa places).toList ++ rest = (numberText mantissa' places').toList ++ rest') :
    (mantissa = mantissa' ∧ places = places') ∧ rest = rest' := by
  rcases exists_numberText mantissa places with ⟨whole, fraction, htext, hne, hwhole, hfraction, hlength, hvalue⟩
  rcases exists_numberText mantissa' places' with
    ⟨whole', fraction', htext', hne', hwhole', hfraction', hlength', hvalue'⟩
  have hhead {whole : List Char} (more : List Char) (hne : whole ≠ []) (hwhole : ∀ c ∈ whole, c.isDigit = true) :
      ∀ c ∈ (whole ++ more).head?, c.isDigit = true := by
    cases whole with
    | nil => exact absurd rfl hne
    | cons d whole => simpa using hwhole d List.mem_cons_self
  rw [htext, htext', List.append_assoc, List.append_assoc, List.append_assoc, List.append_assoc] at h
  rcases sign_inj (hhead _ hne hwhole) (hhead _ hne' hwhole') h with ⟨hsign, hdigits⟩
  rcases digits_inj hwhole hwhole' (isDigit_head?_fraction hrest) (isDigit_head?_fraction hrest') hdigits with
    ⟨rfl, hpoint⟩
  rcases fraction_inj hfraction hfraction' hlength hlength' hrest hrest' hpoint with ⟨rfl, hends⟩
  have habs : mantissa.natAbs = mantissa'.natAbs := hvalue.symm.trans hvalue'
  exact ⟨⟨by omega, hlength.symm.trans hlength'⟩, hends⟩

end Number

section Block

/-- What stands behind a line of a block: the lines after it and the end of the block. -/
def blockRest (closing : String) (level : Nat) : List String → List Char
  | [] => '\n' :: ((indent level).toList ++ closing.toList)
  | line :: lines => ',' :: '\n' :: ((indent (level + 1)).toList ++ (line.toList ++ blockRest closing level lines))

theorem toList_block_nil (opening closing : String) (level : Nat) :
    (block opening closing level []).toList = opening.toList ++ closing.toList := by
  rw [block, String.toList_append]

theorem toList_block_cons (opening closing : String) (level : Nat) (line : String) (lines : List String) :
    (block opening closing level (line :: lines)).toList = opening.toList ++
      '\n' :: ((indent (level + 1)).toList ++ (line.toList ++ blockRest closing level lines)) := by
  have hlines : ((",\n".intercalate ((line :: lines).map (indent (level + 1) ++ ·))).toList ++
      ("\n" ++ indent level ++ closing).toList) =
        (indent (level + 1)).toList ++ (line.toList ++ blockRest closing level lines) := by
    induction lines generalizing line with
    | nil => simp [blockRest]
    | cons next lines ih =>
      have htail := ih next
      rw [List.map_cons] at htail
      rw [List.map_cons, List.map_cons, String.intercalate_cons_cons]
      simp only [String.toList_append, List.append_assoc] at htail ⊢
      rw [htail, blockRest]
      rfl
  rw [block]
  · simp only [String.toList_append, List.append_assoc] at hlines ⊢
    rw [hlines]
    rfl
  · exact List.cons_ne_nil _ _

theorem endsNumber_blockRest (closing : String) (level : Nat) (lines : List String) (rest : List Char) :
    EndsNumber (blockRest closing level lines ++ rest) := by
  cases lines <;> exact endsNumber_cons (by decide) (by decide) _

variable {α : Type} {line : α → String} {closing : String} {level : Nat}

theorem blockRest_inj {items others : List α} (hitems : ∀ item ∈ items, Readable line item)
    {rest rest' : List Char}
    (h : blockRest closing level (items.map line) ++ rest = blockRest closing level (others.map line) ++ rest') :
    items = others ∧ rest = rest' := by
  induction items generalizing others with
  | nil =>
    cases others with
    | nil => exact ⟨rfl, List.append_cancel_left h⟩
    | cons other others => exact absurd (List.cons.inj h).1 (by decide)
  | cons item items ih =>
    rw [List.forall_mem_cons] at hitems
    cases others with
    | nil => exact absurd (List.cons.inj h).1 (by decide)
    | cons other others =>
      simp only [List.map_cons, blockRest, List.cons_append, List.append_assoc, List.cons.injEq, true_and,
        List.append_cancel_left_eq] at h
      rcases hitems.1 other _ _ (endsNumber_blockRest _ _ _ _) (endsNumber_blockRest _ _ _ _) h with ⟨rfl, hlines⟩
      rcases ih hitems.2 hlines with ⟨rfl, hrest⟩
      exact ⟨rfl, hrest⟩

theorem block_inj {opening : String} {items others : List α} (hitems : ∀ item ∈ items, Readable line item)
    (hclosing : ∀ rest more, closing.toList ++ rest ≠ '\n' :: more) {rest rest' : List Char}
    (h : (block opening closing level (items.map line)).toList ++ rest =
      (block opening closing level (others.map line)).toList ++ rest') : items = others ∧ rest = rest' := by
  -- a block without lines is closed where one with lines goes on to the next line
  cases items with
  | nil =>
    cases others with
    | nil => exact ⟨rfl, List.append_cancel_left h⟩
    | cons other others =>
      rw [List.map_nil, List.map_cons, toList_block_nil, toList_block_cons, List.append_assoc, List.append_assoc] at h
      exact absurd (List.append_cancel_left h) (hclosing _ _)
  | cons item items =>
    rw [List.forall_mem_cons] at hitems
    cases others with
    | nil =>
      rw [List.map_nil, List.map_cons, toList_block_nil, toList_block_cons, List.append_assoc, List.append_assoc] at h
      exact absurd (List.append_cancel_left h).symm (hclosing _ _)
    | cons other others =>
      simp only [List.map_cons, toList_block_cons, List.cons_append, List.append_assoc, List.cons.injEq, true_and,
        List.append_cancel_left_eq] at h
      rcases hitems.1 other _ _ (endsNumber_blockRest _ _ _ _) (endsNumber_blockRest _ _ _ _) h with ⟨rfl, hlines⟩
      rcases blockRest_inj hitems.2 hlines with ⟨rfl, hrest⟩
      exact ⟨rfl, hrest⟩

end Block

section Value

/-- What holds of a value if it holds of its items and of the values of its fields holds of all values. -/
theorem induction {P : Json → Prop} (null : P null) (bool : ∀ value, P (bool value))
    (number : ∀ mantissa places, P (number mantissa places)) (text : ∀ value, P (text value))
    (array : ∀ items, (∀ item ∈ items, P item) → P (array items))
    (object : ∀ fields, (∀ field ∈ fields, P field.2) → P (object fields)) (json : Json) : P json :=
  @Json.rec P (fun items => ∀ item ∈ items, P item) (fun fields => ∀ field ∈ fields, P field.2)
    (fun field => P field.2) null bool number text array object nofun
    (fun _ _ hitem hitems => List.forall_mem_cons.mpr ⟨hitem, hitems⟩) nofun
    (fun _ _ hfield hfields => List.forall_mem_cons.mpr ⟨hfield, hfields⟩) (fun _ _ hvalue => hvalue) json

theorem printItems_eq (level : Nat) (items : List Json) : printItems level items = items.map (printAt level) := by
  induction items with
  | nil => rfl
  | cons item items ih => rw [printItems, ih, List.map_cons]

def fieldLine (level : Nat) (field : String × Json) : String :=
  quoted field.1 ++ ": " ++ field.2.printAt level

theorem printFields_eq (level : Nat) (fields : List (String × Json)) :
    printFields level fields = fields.map (fieldLine level) := by
  induction fields with
  | nil => rfl
  | cons field fields ih =>
    rw [printFields, ih, List.map_cons]
    rfl

theorem readable_fieldLine {level : Nat} {field : String × Json} (h : Readable (printAt level) field.2) :
    Readable (fieldLine level) field := by
  intro other rest rest' hrest hrest' htext
  simp only [fieldLine, String.toList_append, List.append_assoc] at htext
  rcases quoted_inj htext with ⟨hname, hvalue⟩
  rcases h other.2 rest rest' hrest hrest' (List.append_cancel_left hvalue) with ⟨hjson, hends⟩
  exact ⟨Prod.ext hname hjson, hends⟩

/-- A character that stands for all those with which a value of the same kind can start. -/
def leadOf (c : Char) : Char := if c.isDigit ∨ c = '-' then '0' else if c = 'f' then 't' else c

def lead : Json → Char
  | null => 'n'
  | bool _ => 't'
  | number _ _ => '0'
  | text _ => '"'
  | array _ => '['
  | object _ => '\x7b'

theorem lead_printAt (level : Nat) (json : Json) (rest : List Char) :
    ((json.printAt level).toList ++ rest).head?.map leadOf = some json.lead := by
  have hblock (opening : Char) (closing : String) (lines : List String) :
      ((block (.singleton opening) closing level lines).toList ++ rest).head? = some opening := by
    cases lines with
    | nil => simp [toList_block_nil]
    | cons line lines => simp [toList_block_cons]
  cases json with
  | null => rw [printAt]; rfl
  | bool value => cases value <;> rw [printAt] <;> rfl
  | number mantissa places =>
    rcases exists_numberText mantissa places with ⟨whole, fraction, htext, hne, hwhole, -⟩
    cases whole with
    | nil => exact absurd rfl hne
    | cons d whole =>
      rw [printAt, htext, lead]
      split
      · rfl
      · simp [leadOf, hwhole d List.mem_cons_self]
  | text value =>
    rw [printAt, quoted]
    simp [leadOf, lead]
  | array items => exact congrArg (Option.map leadOf) (hblock '[' "]" (printItems (level + 1) items))
  | object fields => exact congrArg (Option.map leadOf) (hblock '\x7b' "\x7d" (printFields (level + 1) fields))

theorem lead_eq {level : Nat} {json other : Json} {rest rest' : List Char}
    (h : (json.printAt level).toList ++ rest = (other.printAt level).toList ++ rest') : json.lead = other.lead := by
  have hlead := congrArg (fun text => text.head?.map leadOf) h
  simp only [lead_printAt] at hlead
  exact Option.some.inj hlead

/-- Every value can be told by its text. -/
theorem readable_printAt (json : Json) : ∀ level, Readable (printAt level) json := by
  induction json using induction with
  | null =>
    intro level other rest rest' _ _ h
    -- a value of another kind would start with another character
    cases other
    case null => exact ⟨rfl, List.append_cancel_left h⟩
    all_goals exact absurd (lead_eq h) (by simp [lead])
  | bool value =>
    intro level other rest rest' _ _ h
    cases other
    case bool value' =>
      cases value <;> cases value' <;> simp only [printAt] at h
      · exact ⟨rfl, List.append_cancel_left h⟩
      · exact absurd (List.cons.inj h).1 (by decide)
      · exact absurd (List.cons.inj h).1 (by decide)
      · exact ⟨rfl, List.append_cancel_left h⟩
    all_goals exact absurd (lead_eq h) (by simp [lead])
  | number mantissa places =>
    intro level other rest rest' hrest hrest' h
    cases other
    case number mantissa' places' =>
      rw [printAt, printAt] at h
      rcases numberText_inj hrest hrest' h with ⟨⟨rfl, rfl⟩, hends⟩
      exact ⟨rfl, hends⟩
    all_goals exact absurd (lead_eq h) (by simp [lead])
  | text value =>
    intro level other rest rest' _ _ h
    cases other
    case text value' =>
      rw [printAt, printAt] at h
      rcases quoted_inj h with ⟨rfl, hends⟩
      exact ⟨rfl, hends⟩
    all_goals exact absurd (lead_eq h) (by simp [lead])
  | array items ih =>
    intro level other rest rest' _ _ h
    cases other
    case array others =>
      rw [printAt, printAt, printItems_eq, printItems_eq] at h
      rcases block_inj (fun item hmem => ih item hmem (level + 1)) (by simp) h with ⟨rfl, hends⟩
      exact ⟨rfl, hends⟩
    all_goals exact absurd (lead_eq h) (by simp [lead])
  | object fields ih =>
    intro level other rest rest' _ _ h
    cases other
    case object others =>
      rw [printAt, printAt, printFields_eq, printFields_eq] at h
      rcases block_inj (fun field hmem => readable_fieldLine (ih field hmem (level + 1))) (by simp) h with
        ⟨rfl, hends⟩
      exact ⟨rfl, hends⟩
    all_goals exact absurd (lead_eq h) (by simp [lead])

theorem join_print_injective :
    Function.Injective fun jsons : List Json => String.join (jsons.map fun json => json.print ++ "\n") := by
  have hcons (json : Json) (jsons : List Json) :
      (String.join ((json :: jsons).map fun json => json.print ++ "\n")).toList =
        (json.printAt 0).toList ++ '\n' :: (String.join (jsons.map fun json => json.print ++ "\n")).toList := by
    simp [print, String.join_cons]
  have hends (rest : List Char) : EndsNumber ('\n' :: rest) := endsNumber_cons (by decide) (by decide) rest
  intro jsons others h
  replace h := congrArg String.toList h
  induction jsons generalizing others with
  | nil =>
    cases others with
    | nil => rfl
    | cons other others =>
      rw [hcons] at h
      exact absurd h (by simp)
  | cons json jsons ih =>
    cases others with
    | nil =>
      rw [hcons] at h
      exact absurd h (by simp)
    | cons other others =>
      rw [hcons, hcons] at h
      rcases readable_printAt json 0 other _ _ (hends _) (hends _) h with ⟨rfl, hlines⟩
      rw [ih (List.cons.inj hlines).2]

end Value

end Signatures.Json
