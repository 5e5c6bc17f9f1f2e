import Stencil.Files.Path
/-!
# Templates stay below their root

A path is followed segment by segment: a segment leads to an entry of the directory, to the
directory above, or nowhere. The name of a template is refused if it could lead anywhere but down;
every other name is put behind the root, and following the path that this gives leads to the root
first and from there to no place that is not below it (`resolve_confined`).

Following a path is a matter of its segments alone: a link from a directory to another one is not
looked at.
-/

set_option autoImplicit false

namespace Stencil.Files

/-- A place among the directories: the names that lead to it from the top. -/
abbrev Place := List (List Char)

namespace Place

/-- Where a segment leads. The directory above the top is the top itself. -/
def step (place : Place) (segment : List Char) : Place :=
  if Path.staysThere segment then place
  else if segment = Path.parentSegment then place.dropLast
  else place ++ [segment]

/-- Where several segments lead, one after the other. -/
def follow (place : Place) (segments : List (List Char)) : Place :=
  segments.foldl step place

/-- Where a path leads for one who stands at a place. -/
def reach (place : Place) (path : String) : Place :=
  follow (if Path.isAbsolute path.toList then [] else place) (Path.segments path.toList)

theorem follow_append (place : Place) (first second : List (List Char)) :
    place.follow (first ++ second) = (place.follow first).follow second :=
  List.foldl_append

/-- An empty segment behind others leads nowhere. -/
theorem follow_concat_nil (place : Place) (segments : List (List Char)) :
    place.follow (segments ++ [[]]) = place.follow segments :=
  follow_append place segments [[]]

/-- A segment that is not the one of the directory above leads further down, or nowhere. -/
theorem prefix_step (place : Place) {segment : List Char} (down : segment ≠ Path.parentSegment) :
    place <+: place.step segment := by
  unfold step
  rw [if_neg down]
  split
  · exact List.prefix_rfl
  · exact List.prefix_append place [segment]

/-- Segments of which none is the one of the directory above lead down: by induction on them. -/
theorem prefix_follow (place : Place) {segments : List (List Char)}
    (down : Path.parentSegment ∉ segments) : place <+: place.follow segments := by
  induction segments generalizing place with
  | nil => exact List.prefix_rfl
  | cons segment rest ih =>
    have first : place <+: place.step segment :=
      place.prefix_step fun same => down (same ▸ List.mem_cons_self)
    exact first.trans (ih _ fun inside => down (List.mem_cons_of_mem _ inside))

end Place

namespace Path

/-- A slash between two paths ends the segments of the one and begins those of the other. -/
theorem segments_append_slash (first second : List Char) :
    segments (first ++ '/' :: second) = segments first ++ segments second := by
  induction first with
  | nil => simp [segments]
  | cons c first ih =>
    by_cases slash : c = '/'
    · simp [segments, slash, ih]
    · cases parts : segments first with
      | nil => exact absurd parts (segments_ne_nil first)
      | cons part others => simp [segments, slash, ih, parts]

/-- A segment leads down, or nowhere, unless it is the one of the directory above. -/
theorem leadsDown_component?_iff {segment : List Char} :
    (∀ part, component? segment = some part → part.leadsDown = true) ↔ segment ≠ parentSegment := by
  constructor
  · rintro down rfl
    exact absurd (down .above rfl) (by decide)
  · intro other part found
    unfold component? at found
    rw [if_neg other] at found
    split at found
    · cases found
    · cases found
      rfl

/-- A name is that of a template unless it is empty, starts at the top of all directories or has a
segment that leads to the directory above. -/
theorem isInside_iff {name : List Char} :
    isInside name = true ↔
      name ≠ [] ∧ isAbsolute name = false ∧ parentSegment ∉ segments name := by
  have start :
      (∀ part ∈ (if isAbsolute name then [.top]
          else if (segments name).head? = some ['.'] then [.here] else [] : List Component),
        part.leadsDown = true) ↔ isAbsolute name = false := by
    cases isAbsolute name
    · simp only [Bool.false_eq_true, if_false, iff_true]
      split <;> simp [Component.leadsDown]
    · simp [Component.leadsDown]
  have rest :
      (∀ part ∈ (segments name).filterMap component?, part.leadsDown = true) ↔
        parentSegment ∉ segments name := by
    simp only [List.mem_filterMap, forall_exists_index, and_imp]
    constructor
    · intro down inside
      exact leadsDown_component?_iff.1 (fun part found => down part _ inside found) rfl
    · intro apart part segment inside found
      exact leadsDown_component?_iff.2 (fun same => apart (same ▸ inside)) part found
  unfold isInside components
  rw [Bool.and_eq_true, List.all_eq_true, List.forall_mem_append, start, rest]
  simp

/-- Whether a path starts at the top of all directories is decided by what stands first. -/
theorem isAbsolute_append {first : List Char} (some_ : first ≠ []) (second : List Char) :
    isAbsolute (first ++ second) = isAbsolute first := by
  cases first with
  | nil => exact absurd rfl some_
  | cons c first => rfl

end Path

/-- The name of a template could lead out of a root. -/
def LeadsOut (name : String) : Prop :=
  name = "" ∨ Path.isAbsolute name.toList = true ∨ Path.parentSegment ∈ Path.segments name.toList

/-- A path leads from a root along the segments of a name, and from the root on it passes no place
that is not the root or below it. This holds wherever the root is looked for from, if its own path
does not start at the top of all directories. -/
structure LeadsBelow (root name path : String) : Prop where
  /-- The path is the name behind the root. -/
  joined : path = Path.join root name
  /-- The name does not take the place of the root. -/
  behind : Path.isAbsolute name.toList = false
  /-- What the path leads to is found from the root. -/
  reaches : ∀ place : Place,
    place.reach path = (place.reach root).follow (Path.segments name.toList)
  /-- From the root on every place is the root or below it. -/
  inside : ∀ place : Place, ∀ passed, passed <+: Path.segments name.toList →
    place.reach root <+: (place.reach root).follow passed

/-- What stands behind a slash is followed from where the slash is reached. -/
theorem Place.reach_slash (place : Place) (first second : List Char) :
    place.reach (String.ofList (first ++ '/' :: second)) =
      (place.reach (String.ofList (first ++ ['/']))).follow (Path.segments second) := by
  have start : Path.isAbsolute (first ++ '/' :: second) = Path.isAbsolute (first ++ ['/']) := by
    cases first with
    | nil => rfl
    | cons c first => rfl
  have ended : Path.segments (first ++ ['/']) = Path.segments first ++ [[]] :=
    Path.segments_append_slash first []
  simp only [reach, String.toList_ofList, start, ended, Path.segments_append_slash, follow_append]
  rfl

/-- A slash at the end of a path leads nowhere. -/
theorem Place.reach_slash_end (place : Place) {first : List Char} (some_ : first ≠ []) :
    place.reach (String.ofList (first ++ ['/'])) = place.reach (String.ofList first) := by
  have ended : Path.segments (first ++ ['/']) = Path.segments first ++ [[]] :=
    Path.segments_append_slash first []
  simp only [reach, String.toList_ofList, ended, Path.isAbsolute_append some_, follow_concat_nil]

/-- A name behind a root leads where it leads from the root. A slash is put between the two unless
the root is empty or ends in one. -/
theorem Place.reach_join (place : Place) {root name : String}
    (behind : Path.isAbsolute name.toList = false) :
    place.reach (Path.join root name) =
      (place.reach root).follow (Path.segments name.toList) := by
  unfold Path.join
  rw [if_neg (by simp [behind])]
  split
  · next bare =>
    rcases Bool.or_eq_true_iff.1 bare with empty | slash
    · obtain rfl := String.isEmpty_iff.1 empty
      have stays : place.reach "" = place := rfl
      rw [String.empty_append, stays, reach, behind]
      rfl
    · obtain ⟨first, same⟩ := List.getLast?_eq_some_iff.1 (of_decide_eq_true slash)
      have whole : root = String.ofList (first ++ ['/']) := by rw [← same, String.ofList_toList]
      have joined : root ++ name = String.ofList (first ++ '/' :: name.toList) := by
        rw [← String.toList_inj]
        simp [same]
      rw [joined, whole, reach_slash]
  · next apart =>
    have some_ : root.toList ≠ [] := by
      rintro empty
      exact apart (by simp [String.toList_eq_nil_iff.1 empty])
    have joined : root ++ "/" ++ name = String.ofList (root.toList ++ '/' :: name.toList) := by
      rw [← String.toList_inj]
      simp
    rw [joined, reach_slash, reach_slash_end place some_, String.ofList_toList]

/-- A name that is empty, starts at the top of all directories or has a segment that leads to the
directory above is refused. Every other name gives a path that leads to the root and from there to
no place that is not below it. -/
theorem resolve_confined (root name : String) :
    (LeadsOut name → resolve root name = .error (.invalidName name)) ∧
    (¬ LeadsOut name → ∃ path, resolve root name = .ok path ∧ LeadsBelow root name path) := by
  have inside_iff : Path.isInside name.toList = true ↔ ¬ LeadsOut name := by
    rw [Path.isInside_iff, LeadsOut, not_or, not_or, Bool.not_eq_true, ne_eq,
      String.toList_eq_nil_iff]
  constructor
  · intro out
    have : Path.isInside name.toList ≠ true := fun inside => inside_iff.1 inside out
    rw [resolve, if_neg this]
  · intro confined
    have inside := inside_iff.2 confined
    obtain ⟨-, behind, down⟩ := Path.isInside_iff.1 inside
    refine ⟨Path.join root name, by rw [resolve, if_pos inside],
      ⟨rfl, behind, fun place => place.reach_join behind, fun place passed part => ?_⟩⟩
    exact Place.prefix_follow _ fun found => down (part.subset found)

end Stencil.Files
