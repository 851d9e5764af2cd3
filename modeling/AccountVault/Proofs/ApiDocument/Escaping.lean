import Mathlib
import AccountVault.ApiDocument.Page
import AccountVault.Proofs.ApiDocument.Literal

/-!
# Texts that cannot leave their place in the page

The page has two texts that vary, a title and an address. Both are escaped, so whatever they are,
the characters that begin or end something in the page are those of its template. Escaping has an
inverse. A text is an escaped one exactly if no such character stands in it and each ampersand
begins an entity, and then replacing the entities gives what was escaped. Since an escaped text ends
at the first delimiter of the template behind it, a page tells its title and its address.
-/

namespace AccountVault

namespace Markup

def IsDelimiter (c : Char) : Prop := c ∈ ['<', '>', '"']

instance (c : Char) : Decidable (IsDelimiter c) := inferInstanceAs (Decidable (c ∈ _))

def delimiters (text : String) : List Char := text.toList.filter (IsDelimiter ·)

def entities : List (Char × List Char) :=
  [('&', ['&', 'a', 'm', 'p', ';']), ('<', ['&', 'l', 't', ';']), ('>', ['&', 'g', 't', ';']),
    ('"', ['&', 'q', 'u', 'o', 't', ';'])]

def IsPlain (c : Char) : Prop := c ≠ '&' ∧ ¬IsDelimiter c

instance (c : Char) : Decidable (IsPlain c) := inferInstanceAs (Decidable (_ ∧ _))

variable {c : Char} {entity : List Char}

theorem special_cases (special : ¬IsPlain c) : c = '&' ∨ c = '<' ∨ c = '>' ∨ c = '"' := by
  by_contra others
  exact special (by simpa [IsPlain, IsDelimiter] using others)

theorem escapeChar_of_plain (plain : IsPlain c) : escapeChar c = [c] :=
  Literal.escapeChar_of_not_mem (by simpa [IsPlain, IsDelimiter] using plain)

theorem mem_entities_iff : (c, entity) ∈ entities ↔ ¬IsPlain c ∧ escapeChar c = entity := by
  constructor
  · have listed : ∀ p ∈ entities, ¬IsPlain p.1 ∧ escapeChar p.1 = p.2 := by decide
    exact listed (c, entity)
  · rintro ⟨special, rfl⟩
    rcases special_cases special with rfl | rfl | rfl | rfl <;> decide

theorem exists_name (special : ¬IsPlain c) :
    ∃ name, escapeChar c = '&' :: name ∧ ∀ d ∈ name, IsPlain d := by
  rcases special_cases special with rfl | rfl | rfl | rfl <;>
    exact ⟨_, rfl, by simp [IsPlain, IsDelimiter]⟩

theorem escapeChar_ne_nil (c : Char) : escapeChar c ≠ [] := by
  by_cases plain : IsPlain c
  · simp [escapeChar_of_plain plain]
  · obtain ⟨name, shape, -⟩ := exists_name plain
    simp [shape]

theorem unescapeChars_cons (other : c ≠ '&') (rest : List Char) :
    unescapeChars (c :: rest) = c :: unescapeChars rest := by
  rw [unescapeChars.eq_def]
  split <;> simp_all

theorem unescapeChars_escapeChar (c : Char) (rest : List Char) :
    unescapeChars (escapeChar c ++ rest) = c :: unescapeChars rest := by
  by_cases plain : IsPlain c
  · rw [escapeChar_of_plain plain, List.singleton_append, unescapeChars_cons plain.1]
  · rcases special_cases plain with rfl | rfl | rfl | rfl <;> rfl

theorem unescapeChars_escapeChars (text : List Char) :
    unescapeChars (text.flatMap escapeChar) = text := by
  induction text with
  | nil => rfl
  | cons c text ih => rw [List.flatMap_cons, unescapeChars_escapeChar, ih]

/-- No delimiter stands in the text, and each ampersand in it begins an entity. -/
structure IsEscaped (written : List Char) : Prop where
  bare : ∀ c ∈ written, ¬IsDelimiter c
  begun : ∀ after, '&' :: after <:+ written → ∃ p ∈ entities, p.2 <+: '&' :: after

namespace IsEscaped

variable {written rest : List Char}

theorem nil : IsEscaped [] := ⟨by simp, by simp⟩

theorem of_suffix (h : IsEscaped written) (suffix : rest <:+ written) : IsEscaped rest :=
  ⟨fun c mem => h.bare c (suffix.mem mem), fun after more => h.begun after (more.trans suffix)⟩

theorem cons (h : IsEscaped rest) (inner : ¬IsDelimiter c)
    (begun : c = '&' → ∃ p ∈ entities, p.2 <+: c :: rest) : IsEscaped (c :: rest) := by
  refine ⟨List.forall_mem_cons.2 ⟨inner, h.bare⟩, fun after suffix => ?_⟩
  rcases List.suffix_cons_iff.1 suffix with whole | later
  · rw [whole]
    exact begun (List.cons.inj whole).1.symm
  · exact h.begun after later

theorem append {first : List Char} (h : IsEscaped rest) (plain : ∀ c ∈ first, IsPlain c) :
    IsEscaped (first ++ rest) := by
  induction first with
  | nil => exact h
  | cons c first ih =>
    obtain ⟨⟨other, inner⟩, plain⟩ := List.forall_mem_cons.1 plain
    exact (ih plain).cons inner fun ampersand => absurd ampersand other

theorem escapeChar_append (h : IsEscaped rest) (c : Char) : IsEscaped (escapeChar c ++ rest) := by
  by_cases plain : IsPlain c
  · rw [escapeChar_of_plain plain]
    exact h.append (by simpa using plain)
  · -- Only the first character of an entity is an ampersand, and there the entity itself begins.
    have mem : (c, escapeChar c) ∈ entities := mem_entities_iff.2 ⟨plain, rfl⟩
    obtain ⟨name, shape, named⟩ := exists_name plain
    rw [shape] at mem ⊢
    exact (h.append named).cons (by decide) fun _ => ⟨_, mem, List.prefix_append _ _⟩

theorem exists_escapeChar (h : IsEscaped (c :: rest)) :
    ∃ d more, c :: rest = escapeChar d ++ more := by
  by_cases ampersand : c = '&'
  · subst ampersand
    obtain ⟨⟨d, entity⟩, mem, more, parts⟩ := h.begun rest List.suffix_rfl
    exact ⟨d, more, by rw [(mem_entities_iff.1 mem).2, parts]⟩
  · refine ⟨c, rest, ?_⟩
    rw [escapeChar_of_plain ⟨ampersand, h.bare c (by simp)⟩, List.singleton_append]

theorem escapeChars_unescapeChars (h : IsEscaped written) :
    (unescapeChars written).flatMap escapeChar = written := by
  -- Reading takes several characters at once, so the induction is on the length.
  induction size : written.length using Nat.strong_induction_on generalizing written with
  | _ n ih =>
    subst size
    cases written with
    | nil => rfl
    | cons c rest =>
      obtain ⟨d, more, parts⟩ := h.exists_escapeChar
      rw [parts] at h ih ⊢
      have shorter : more.length < (escapeChar d ++ more).length := by
        have filled := List.length_pos_iff.2 (escapeChar_ne_nil d)
        rw [List.length_append]
        omega
      have tail := ih _ shorter (h.of_suffix (List.suffix_append _ _)) rfl
      rw [unescapeChars_escapeChar, List.flatMap_cons, tail]

end IsEscaped

theorem isEscaped_escape (text : String) : IsEscaped (escape text).toList := by
  rw [escape, String.toList_ofList]
  induction text.toList with
  | nil => exact .nil
  | cons c text ih => exact ih.escapeChar_append c

theorem unescape_escape (text : String) : unescape (escape text) = text := by
  rw [unescape, escape, String.toList_ofList, unescapeChars_escapeChars, String.ofList_toList]

example : escape "<&lt;" = "&lt;&amp;lt;" ∧ unescape "&lt;&amp;lt;" = "<&lt;" := by decide +kernel

theorem isEscaped_iff (written : String) :
    IsEscaped written.toList ↔ escape (unescape written) = written := by
  constructor
  · intro h
    rw [unescape, escape, String.toList_ofList, h.escapeChars_unescapeChars, String.ofList_toList]
  · intro same
    rw [← same]
    exact isEscaped_escape _

theorem escape_injective : Function.Injective escape :=
  Function.LeftInverse.injective unescape_escape

@[simp] theorem delimiters_append (first second : String) :
    delimiters (first ++ second) = delimiters first ++ delimiters second := by
  simp [delimiters]

@[simp] theorem delimiters_escape (text : String) : delimiters (escape text) = [] := by
  refine List.filter_eq_nil_iff.2 fun c mem => ?_
  simpa using (isEscaped_escape text).bare c mem

theorem escape_append_inj {text text' : String} {rest rest' : List Char} (delimiter : IsDelimiter c)
    (same : (escape text).toList ++ c :: rest = (escape text').toList ++ c :: rest') :
    text = text' ∧ rest = rest' := by
  have cut : ∀ text rest, ((escape text).toList ++ c :: rest).takeWhile (¬IsDelimiter ·) =
      (escape text).toList := by
    intro text rest
    rw [List.takeWhile_append_of_pos, List.takeWhile_cons_of_neg, List.append_nil]
    · simpa using delimiter
    · simpa using (isEscaped_escape text).bare
  have texts := congrArg (List.takeWhile (¬IsDelimiter ·)) same
  rw [cut, cut] at texts
  rw [texts] at same
  have behind := List.append_cancel_left same
  exact ⟨escape_injective (String.toList_inj.1 texts), (List.cons.inj behind).2⟩

end Markup

namespace ApiDocument.Page

theorem delimiters_render (title address : String) :
    Markup.delimiters (render title address) =
      Markup.delimiters (beforeTitle ++ beforeAddress ++ afterAddress) := by
  simp [render]

theorem exists_toList_beforeAddress : ∃ rest, beforeAddress.toList = '<' :: rest := by
  delta beforeAddress
  simp only [String.toList_append]
  exact ⟨_, rfl⟩

theorem render_inj {title title' address address' : String} :
    render title address = render title' address' ↔ title = title' ∧ address = address' := by
  constructor
  · intro same
    obtain ⟨rest, begins⟩ := exists_toList_beforeAddress
    have chars := congrArg String.toList same
    simp only [render, String.toList_append, begins, List.append_assoc, List.cons_append] at chars
    -- The title ends at the tag that closes it, and then only the address is left open.
    obtain ⟨titles, behind⟩ := Markup.escape_append_inj (by decide) (List.append_cancel_left chars)
    have addresses := List.append_cancel_right (List.append_cancel_left behind)
    exact ⟨titles, Markup.escape_injective (String.toList_inj.1 addresses)⟩
  · rintro ⟨rfl, rfl⟩
    rfl

end ApiDocument.Page

open ApiDocument

/-- The delimiters of a page are those of its template, in their order, whatever the title and the
address are. An escaped text has none, each ampersand in it begins an entity, and replacing the
entities from left to right gives the text back; every text of this form is an escaped one. So pages
with another title or another address differ. -/
theorem page_texts_confined_and_kept (title address : String) :
    Markup.delimiters (Page.render title address) =
        Markup.delimiters (Page.beforeTitle ++ Page.beforeAddress ++ Page.afterAddress) ∧
      (∀ text, Markup.IsEscaped (Markup.escape text).toList ∧
        Markup.unescape (Markup.escape text) = text) ∧
      (∀ written, Markup.IsEscaped written.toList ↔
        Markup.escape (Markup.unescape written) = written) ∧
      ∀ title' address', Page.render title address = Page.render title' address' ↔
        title = title' ∧ address = address' := by
  refine ⟨Page.delimiters_render title address, fun text => ⟨?_, ?_⟩, Markup.isEscaped_iff,
    fun title' address' => Page.render_inj⟩
  · exact Markup.isEscaped_escape text
  · exact Markup.unescape_escape text

end AccountVault
