import Stencil.Text.Entity
/-!
# Escaped text

What can stand in an escaped text, and what it says. None of the characters that end a text or an
attribute value stands in it, and an ampersand stands only at the beginning of one of the five
entities. Nothing is lost: the entities can be replaced by their characters again. Pieces may be
escaped one by one, whether a piece has something to replace or not.
-/

set_option autoImplicit false

namespace Stencil.Text.Entity

/-- An entity begins with an ampersand, and none of its further characters is to be replaced. -/
theorem entities_plain : ∀ entry ∈ entities,
    entry.2 = '&' :: entry.2.tail ∧ ∀ c ∈ entry.2.tail, entity? c = none := by
  decide

/-- The escaped form of a character is the character, or an entity. -/
theorem escapeChar_cases (c : Char) :
    entity? c = none ∧ escapeChar c = [c] ∨ ∃ entry ∈ entities, escapeChar c = entry.2 := by
  cases found : entity? c with
  | none => exact .inl ⟨rfl, by rw [escapeChar, found, Option.getD_none]⟩
  | some text =>
    obtain ⟨entry, listed, rfl⟩ := Option.map_eq_some_iff.1 found
    exact .inr ⟨entry, List.mem_of_find?_eq_some listed, by rw [escapeChar, found, Option.getD_some]⟩

/-- Only an ampersand of an escaped character could be escaped again. -/
theorem eq_amp_of_mem_escapeChar {c d : Char} (inside : d ∈ escapeChar c)
    (markup : (entity? d).isSome = true) : d = '&' := by
  rcases escapeChar_cases c with ⟨plain, same⟩ | ⟨entry, listed, same⟩
  · rw [same, List.mem_singleton] at inside
    rw [inside, plain] at markup
    cases markup
  · obtain ⟨begins, rest⟩ := entities_plain entry listed
    rw [same, begins] at inside
    rcases List.mem_cons.1 inside with here | further
    · exact here
    · rw [rest d further] at markup
      cases markup

/-- An ampersand in the escaped form of a character is the beginning of an entity that is all of
it. -/
theorem entity_of_suffix_escapeChar {c : Char} {behind : List Char}
    (ends : '&' :: behind <:+ escapeChar c) : ∃ entry ∈ entities, '&' :: behind = entry.2 := by
  rcases escapeChar_cases c with ⟨plain, same⟩ | ⟨entry, listed, same⟩
  · rw [same, List.suffix_cons_iff, List.suffix_nil] at ends
    rcases ends with whole | none
    · cases whole
      cases plain
    · cases none
  · obtain ⟨begins, rest⟩ := entities_plain entry listed
    rw [same, begins, List.suffix_cons_iff] at ends
    rcases ends with whole | further
    · exact ⟨entry, listed, whole.trans begins.symm⟩
    · have := rest '&' (further.subset List.mem_cons_self)
      cases this

/-- An ampersand in an escaped text begins an entity: by induction on the text, whose characters are
escaped one by one. -/
theorem entity_of_suffix_escape {text behind : List Char} (ends : '&' :: behind <:+ escape text) :
    ∃ entry ∈ entities, entry.2 <+: '&' :: behind := by
  induction text with
  | nil => cases List.suffix_nil.1 ends
  | cons c text ih =>
    obtain ⟨before, same⟩ := ends
    rw [escape, List.flatMap_cons, ← escape] at same
    rcases List.append_eq_append_iff.1 same with ⟨piece, here, later⟩ | ⟨piece, -, later⟩
    · cases piece with
      | nil => exact ih ⟨[], later.trans (List.nil_append _)⟩
      | cons d piece =>
        obtain ⟨rfl, rfl⟩ := List.cons.inj later
        obtain ⟨entry, listed, whole⟩ := entity_of_suffix_escapeChar ⟨before, here.symm⟩
        exact ⟨entry, listed, whole ▸ ⟨escape text, rfl⟩⟩
    · exact ih ⟨piece, later.symm⟩

/-- Escaping is safe and loses nothing. An escaped text holds none of the characters that end a text
or an attribute value; each ampersand in it begins one of the five entities; replacing those by
their characters gives back the text, so different texts stay different; and the escape of a
concatenation is the concatenation of the escapes, whichever of the texts are copied. -/
theorem escapeText_faithful :
    (∀ text : String,
      (∀ c ∈ (escapeText text).toList, c ≠ '<' ∧ c ≠ '>' ∧ c ≠ '"' ∧ c ≠ '\'') ∧
      (∀ behind, '&' :: behind <:+ (escapeText text).toList →
        ∃ entry ∈ entities, entry.2 <+: '&' :: behind) ∧
      decode (escapeText text).toList = text.toList ∧
      (escaped text.toList = .untouched text.toList ↔
        ∀ c ∈ text.toList, (entity? c).isSome = false)) ∧
    Function.Injective escapeText ∧
    ∀ first second : String, escapeText (first ++ second) = escapeText first ++ escapeText second := by
  have written (text : String) : (escapeText text).toList = escape text.toList := by
    rw [escapeText, String.toList_ofList, text_escaped]
  have back (text : String) : decode (escapeText text).toList = text.toList := by
    rw [written, decode_escape]
  refine ⟨fun text => ⟨fun c inside => ?_, fun behind ends => ?_, back text, ?_⟩,
    fun first second same => ?_, fun first second => ?_⟩
  · rw [written] at inside
    obtain ⟨d, -, inside⟩ := List.mem_flatMap.1 inside
    have plain (markup : (entity? c).isSome = true) : c = '&' := eq_amp_of_mem_escapeChar inside markup
    refine ⟨?_, ?_, ?_, ?_⟩ <;> (rintro rfl; exact absurd (plain rfl) (by decide))
  · rw [written] at ends
    exact entity_of_suffix_escape ends
  · unfold escaped
    rw [← List.findIdx?_eq_none_iff]
    split
    · next none => simp [none]
    · next found => simp [found]
  · rw [← String.toList_inj, ← back first, ← back second, same]
  · rw [← String.toList_inj, String.toList_append, written, written, written, String.toList_append,
      escape_append]

end Stencil.Text.Entity
