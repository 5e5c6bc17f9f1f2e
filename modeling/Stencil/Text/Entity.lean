/-!
# Character entities

Text that is written into markup has five characters replaced by entities; `decode` turns those
five entities back. Escaping is a map over the characters, so it distributes over concatenation
(`escape_append`), and decoding undoes it (`decode_escape`).

A text without any of the five is not copied: `escaped` tells whether it was.
-/

set_option autoImplicit false

namespace Stencil.Text.Entity

/-- The characters of markup, with the entities that stand for them. -/
def entities : List (Char × List Char) :=
  [('&', "&amp;".toList), ('"', "&quot;".toList), ('\'', "&#39;".toList), ('<', "&lt;".toList),
    ('>', "&gt;".toList)]

/-- The entity that stands for a character of markup. -/
def entity? (c : Char) : Option (List Char) :=
  (entities.find? fun entry => entry.1 = c).map (·.2)

/-- The escaped form of one character. -/
def escapeChar (c : Char) : List Char :=
  (entity? c).getD [c]

/-- Replaces the characters of markup by their entities. -/
def escape (cs : List Char) : List Char :=
  cs.flatMap escapeChar

/-- Replaces each of the five entities by its character and keeps all else. -/
def decode : List Char → List Char
  | [] => []
  | '&' :: 'a' :: 'm' :: 'p' :: ';' :: rest => '&' :: decode rest
  | '&' :: 'q' :: 'u' :: 'o' :: 't' :: ';' :: rest => '"' :: decode rest
  | '&' :: '#' :: '3' :: '9' :: ';' :: rest => '\'' :: decode rest
  | '&' :: 'l' :: 't' :: ';' :: rest => '<' :: decode rest
  | '&' :: 'g' :: 't' :: ';' :: rest => '>' :: decode rest
  | c :: rest => c :: decode rest

/-- The escape of a concatenation is the concatenation of the escapes. -/
theorem escape_append (cs ds : List Char) : escape (cs ++ ds) = escape cs ++ escape ds := by
  simp [escape]

/-- Decoding gives back the character that an escaped text begins with. -/
theorem decode_escapeChar_append (c : Char) (rest : List Char) :
    decode (escapeChar c ++ rest) = c :: decode rest := by
  by_cases hAmp : c = '&'
  · subst hAmp; rfl
  by_cases hQuot : c = '"'
  · subst hQuot; rfl
  by_cases hApos : c = '\''
  · subst hApos; rfl
  by_cases hLess : c = '<'
  · subst hLess; rfl
  by_cases hGreater : c = '>'
  · subst hGreater; rfl
  have hSelf : escapeChar c = [c] := by
    simp [escapeChar, entity?, entities, Ne.symm hAmp, Ne.symm hQuot, Ne.symm hApos,
      Ne.symm hLess, Ne.symm hGreater]
  rw [hSelf]
  simp [decode, hAmp]

/-- Decoding an escaped text gives the text back. -/
theorem decode_escape (cs : List Char) : decode (escape cs) = cs := by
  induction cs with
  | nil => rfl
  | cons c cs ih =>
    have h : escape (c :: cs) = escapeChar c ++ escape cs := by simp [escape]
    rw [h, decode_escapeChar_append, ih]

/-- A text that was escaped. -/
inductive Escaped where
  /-- The text itself: it has nothing to replace. -/
  | untouched (text : List Char)
  /-- A new text, with entities in it. -/
  | copied (text : List Char)
deriving DecidableEq

/-- The text that escaping gave, copied or not. -/
def Escaped.text : Escaped → List Char
  | untouched text => text
  | copied text => text

/-- Escapes a text. What stands before the first character of markup is kept in one piece, and a
text without any is kept as it is. -/
def escaped (text : List Char) : Escaped :=
  match text.findIdx? fun c => (entity? c).isSome with
  | none => .untouched text
  | some first => .copied (text.take first ++ escape (text.drop first))

/-- Text without characters of markup is its own escaped form. -/
theorem escape_of_plain {cs : List Char} (plain : ∀ c ∈ cs, (entity? c).isSome = false) :
    escape cs = cs := by
  induction cs with
  | nil => rfl
  | cons c cs ih =>
    have here : escapeChar c = [c] := by
      have none : entity? c = none := by simpa using plain c List.mem_cons_self
      rw [escapeChar, none, Option.getD_none]
    have behind := ih fun d inside => plain d (List.mem_cons_of_mem _ inside)
    rw [escape, List.flatMap_cons, here, List.singleton_append, ← escape, behind]

/-- Copied or not, the text is the escaped one. -/
theorem text_escaped (text : List Char) : (escaped text).text = escape text := by
  unfold escaped
  split
  · next found =>
    rw [List.findIdx?_eq_none_iff] at found
    exact (escape_of_plain found).symm
  · next first found =>
    obtain ⟨_, before⟩ := (List.findIdx?_eq_some_iff_getElem.1 found).2
    have plain : ∀ c ∈ text.take first, (entity? c).isSome = false := by
      intro c inside
      obtain ⟨i, short, rfl⟩ := List.mem_take_iff_getElem.1 inside
      simpa using before i (by omega)
    calc text.take first ++ escape (text.drop first)
        = escape (text.take first) ++ escape (text.drop first) := by rw [escape_of_plain plain]
      _ = escape text := by rw [← escape_append, List.take_append_drop]

/-- Escaping, on a text. -/
def escapeText (s : String) : String :=
  String.ofList (escaped s.toList).text

end Stencil.Text.Entity
