import Stencil.Proofs.Rendering.Drains
/-!
# How a rendering stands to a stream

From the history of a rendering one can tell how it stands to a stream (`Standing.of`): whether it was
given the stream, reads it from a source, or has given the source back; and how many items it was given.
A rendering whose body has failed for an item gives the source back without another question about it
(`BodyFails.left`), and one that succeeds was told of the end (`isTold_of_drains`).
-/

set_option autoImplicit false

namespace Stencil.Render

open Stencil.Stream (Item)
open RenderM

/-- The item that an exchange has brought from a source. -/
def Exchange.itemOf (source : Nat) : Exchange → Option Item
  | ⟨.pull other, .ok item⟩ => if other = source then item else none
  | _ => none

/-- The items that a source has given in a history. -/
def itemsOf (source : Nat) (history : List Exchange) : List Item := history.filterMap (Exchange.itemOf source)

theorem itemsOf_cons (source : Nat) (exchange : Exchange) (history : List Exchange) :
    itemsOf source (exchange :: history) = (exchange.itemOf source).toList ++ itemsOf source history := by
  rw [itemsOf, List.filterMap_cons]
  cases exchange.itemOf source <;> rfl

theorem itemOf_apart {source : Nat} {exchange : Exchange} (apart : exchange.request.source? ≠ some source) :
    exchange.itemOf source = none := by
  obtain ⟨request, answer⟩ := exchange
  cases request with
  | pull other =>
    cases answer with
    | error cause => rfl
    | ok item => exact if_neg fun same => apart (congrArg some same)
  | _ => rfl

/-- How a rendering stands to a stream. Where it was given the stream, `given` is the number of the items
that it got; it is busy with the last of them until it asks again, and it may have been told of the end. -/
inductive Standing where
  | untouched
  | reading (source given : Nat) (busy told : Bool)
  | left (given : Nat) (busy told : Bool)

namespace Standing

variable {handle source given : Nat} {busy told : Bool} {standing : Standing} {history : List Exchange}

/-- How a rendering stands to a stream behind an exchange. -/
def next (handle : Nat) : Standing → Exchange → Standing
  | untouched, ⟨.take source other, true⟩ =>
    if other = handle then reading source 0 false false else untouched
  | reading source given busy told, ⟨.pull other, answer⟩ =>
    if other = source then
      match answer with
      | .ok (some _) => reading source (given + 1) true told
      | .ok none => reading source given false true
      | .error _ => reading source given false told
    else reading source given busy told
  | reading source given busy told, ⟨.release other, _⟩ =>
    if other = source then left given busy told else reading source given busy told
  | standing, _ => standing

/-- How a rendering with a history stands to a stream. -/
def of (handle : Nat) (history : List Exchange) : Standing := history.foldl (next handle) untouched

theorem of_concat (handle : Nat) (history : List Exchange) (exchange : Exchange) :
    of handle (history ++ [exchange]) = next handle (of handle history) exchange := by
  rw [of, List.foldl_append]
  rfl

/-! ## One exchange -/

/-- Who does not ask for a stream does not touch it. -/
theorem next_untouched {exchange : Exchange} (other : exchange.request.asksFor handle = false) :
    next handle untouched exchange = untouched := by
  obtain ⟨request, answer⟩ := exchange
  cases request with
  | take source asked =>
    have differs : asked ≠ handle := by simpa [Request.asksFor] using other
    cases answer with
    | true => exact if_neg differs
    | false => rfl
  | _ => rfl

/-- A stream is read from the source under whose number it was opened. -/
theorem next_takes : next handle untouched (.takes source handle true) = reading source 0 false false :=
  if_pos rfl

/-- What is not about the source changes nothing. -/
theorem next_apart {exchange : Exchange} (apart : exchange.request.source? ≠ some source) :
    next handle (reading source given busy told) exchange = reading source given busy told := by
  obtain ⟨request, answer⟩ := exchange
  cases request with
  | pull other | release other => exact if_neg fun same => apart (congrArg some same)
  | _ => rfl

theorem next_brings (item : Item) : next handle (reading source given busy told) (.brings source item) =
    reading source (given + 1) true told :=
  if_pos rfl

theorem next_ends : next handle (reading source given busy told) (.ends source) =
    reading source given false true :=
  if_pos rfl

theorem next_releases (answer : (Request.release source).Answer) :
    next handle (reading source given busy told) ⟨.release source, answer⟩ = left given busy told :=
  if_pos rfl

/-- Who asks for the next item is busy with what it gets. -/
theorem next_pulls (answer : (Request.pull source).Answer) :
    ∃ told', next handle (reading source given busy told) ⟨.pull source, answer⟩ =
      reading source (given + (Exchange.itemOf source ⟨.pull source, answer⟩).toList.length)
        (Exchange.itemOf source ⟨.pull source, answer⟩).isSome told' ∧ (told = true → told' = true) := by
  cases answer with
  | error cause => exact ⟨told, if_pos rfl, id⟩
  | ok item =>
    have brought : Exchange.itemOf source ⟨.pull source, .ok item⟩ = item := if_pos rfl
    rw [brought]
    cases item with
    | none => exact ⟨true, next_ends, fun _ => rfl⟩
    | some item => exact ⟨told, next_brings item, id⟩

/-- Who has given the source back is done with the stream. -/
theorem next_left (exchange : Exchange) : next handle (left given busy told) exchange = left given busy told := by
  obtain ⟨request, answer⟩ := exchange
  cases request <;> rfl

/-- As long as a source is not given back, its items are counted. -/
theorem next_leaves {exchange : Exchange} (leaves : exchange.request.Leaves source) :
    ∃ busy' told', next handle (reading source given busy told) exchange =
      reading source (given + (exchange.itemOf source).toList.length) busy' told' := by
  by_cases about : exchange.request.source? = some source
  · obtain ⟨request, answer⟩ := exchange
    cases request with
    | pull other =>
      obtain rfl : other = source := Option.some.inj about
      obtain ⟨told', same, -⟩ := @next_pulls handle other given busy told answer
      exact ⟨_, told', same⟩
    | release other => exact absurd (congrArg Request.release (Option.some.inj about)) leaves.1
    | iterate other _ | take other _ => exact absurd about leaves.2
    | cached _ | store _ _ | load _ | lookup _ _ | call _ _ | pause => cases about
  · rw [itemOf_apart about]
    exact ⟨busy, told, next_apart about⟩

/-- Whether a rendering was told of the end. -/
def isTold : Standing → Bool
  | untouched => false
  | reading _ _ _ told | left _ _ told => told

/-- Who was told of the end stays so. -/
theorem isTold_next (exchange : Exchange) (told : standing.isTold = true) :
    (next handle standing exchange).isTold = true := by
  cases standing with
  | untouched => cases told
  | left given busy told' =>
    rw [next_left]
    exact told
  | reading source given busy told' =>
    by_cases about : exchange.request.source? = some source
    · obtain ⟨request, answer⟩ := exchange
      cases request with
      | pull other =>
        obtain rfl : other = source := Option.some.inj about
        obtain ⟨told'', same, keeps⟩ := @next_pulls handle other given busy told' answer
        rw [same]
        exact keeps told
      | release other =>
        obtain rfl : other = source := Option.some.inj about
        rw [next_releases]
        exact told
      | iterate _ _ | take _ _ => exact told
      | cached _ | store _ _ | load _ | lookup _ _ | call _ _ | pause => cases about
    · rw [next_apart about]
      exact told

/-! ## Histories -/

theorem foldl_untouched (unasked : askings handle history = 0) :
    history.foldl (next handle) untouched = untouched := by
  induction history with
  | nil => rfl
  | cons exchange rest ih =>
    rw [askings_cons] at unasked
    have other : exchange.request.asksFor handle = false := by
      by_contra asks
      rw [Bool.not_eq_false] at asks
      rw [if_pos asks] at unasked
      cases unasked
    rw [List.foldl_cons, next_untouched other]
    exact ih (Nat.eq_zero_of_add_eq_zero_right unasked)

theorem foldl_apart (apart : ∀ exchange ∈ history, exchange.request.source? ≠ some source) :
    history.foldl (next handle) (reading source given busy told) = reading source given busy told := by
  induction history with
  | nil => rfl
  | cons exchange rest ih =>
    rw [List.foldl_cons, next_apart (apart exchange List.mem_cons_self)]
    exact ih fun exchange listed => apart exchange (List.mem_cons_of_mem _ listed)

theorem foldl_left : history.foldl (next handle) (left given busy told) = left given busy told := by
  induction history with
  | nil => rfl
  | cons exchange rest ih => rw [List.foldl_cons, next_left, ih]

theorem foldl_leaves (leaves : ∀ exchange ∈ history, exchange.request.Leaves source) :
    ∃ busy' told', history.foldl (next handle) (reading source given busy told) =
      reading source (given + (itemsOf source history).length) busy' told' := by
  induction history generalizing given busy told with
  | nil => exact ⟨busy, told, rfl⟩
  | cons exchange rest ih =>
    obtain ⟨busy₁, told₁, first⟩ := @next_leaves handle source given busy told exchange
      (leaves exchange List.mem_cons_self)
    obtain ⟨busy₂, told₂, later⟩ :=
      @ih (given + (exchange.itemOf source).toList.length) busy₁ told₁
        fun exchange listed => leaves exchange (List.mem_cons_of_mem _ listed)
    refine ⟨busy₂, told₂, ?_⟩
    rw [List.foldl_cons, first, later, itemsOf_cons, List.length_append, Nat.add_assoc]

theorem isTold_foldl (history : List Exchange) (told : standing.isTold = true) :
    (history.foldl (next handle) standing).isTold = true := by
  induction history generalizing standing with
  | nil => exact told
  | cons exchange rest ih => exact ih (isTold_next exchange told)

end Standing

/-! ## Renderings -/

namespace Process

variable {α : Type}

/-- What a process was asked and answered behind a history, it passes through from where it was then. -/
theorem Passes.rest {p q r : Process α} {history later : List Exchange} (first : p.Passes history q)
    (whole : p.Passes (history ++ later) r) : q.Passes later r := by
  induction first with
  | here p => exact whole
  | more _ ih =>
    cases whole with
    | more whole => exact ih whole

end Process

/-- A source that is opened has a number above those before. -/
theorem numbered_next {α : Type} {holding : Holding} {request : Request} {after : request.Answer → Process α}
    {next : Nat} (numbered : (Process.ask holding request after).Numbered (fun _ _ => True) 0 next)
    (answer : request.Answer) : ∃ next', (after answer).Numbered (fun _ _ => True) 0 next' ∧
      next ≤ next' ∧ ∀ source, request.opened? = some source → source < next' := by
  obtain ⟨-, opens, goes⟩ := numbered
  refine ⟨_, goes answer, ?_⟩
  cases opened : request.opened? with
  | none => exact ⟨Nat.le_refl _, fun source same => (Option.some_ne_none _ same.symm).elim⟩
  | some first =>
    refine ⟨Nat.le_succ_of_le (opens first opened), fun source same => ?_⟩
    cases same
    exact Nat.lt_succ_self _

section

variable {α : Type} {handle : Nat} {history : List Exchange} {p : Process α} {result : α}

/-- A process that succeeds and has asked for a stream once was told of its end. -/
theorem isTold_of_drains {succeeds : α → Prop} (drains : p.Drains succeeds)
    (ends : p.Passes history (.done result)) (success : succeeds result) (once : askings handle history = 1) :
    (Standing.of handle history).isTold = true := by
  obtain ⟨exchange, listed, asks⟩ : ∃ exchange ∈ history, exchange.request.asksFor handle = true :=
    List.countP_pos_iff.1 (Nat.lt_of_lt_of_eq Nat.zero_lt_one once.symm)
  obtain ⟨before, later, rfl⟩ := List.append_of_mem listed
  obtain ⟨request, answer⟩ := exchange
  cases request with
  | take source other =>
    obtain rfl : other = handle := by simpa [Request.asksFor] using asks
    obtain ⟨given, reads, rest, rfl, leaves⟩ := drains before source other answer later result ends success
    obtain rfl : answer = true := given
    have unasked : askings other before = 0 := by
      rw [askings_append, askings_cons, if_pos asks] at once
      omega
    obtain ⟨busy, told, read⟩ := @Standing.foldl_leaves other source 0 false false reads leaves
    rw [Standing.of, List.foldl_append, Standing.foldl_untouched unasked, List.foldl_cons]
    show (List.foldl _ (Standing.next other _ (.takes source other true)) _).isTold = true
    rw [Standing.next_takes, List.foldl_append, read, List.foldl_cons, Standing.next_ends]
    exact Standing.isTold_foldl rest rfl
  | _ => cases asks

/-- Whether the body of an iteration over a stream has ended with a result for one of the items, and what
was asked and answered shows it. The process was given the stream, and from then on so many items; when
it was given the next one it was about to render the body of the iteration for it. -/
inductive BodyEnds (settings : Settings) (p : Process α) (handle index : Nat)
    (out : Except Failure String) : List Exchange → Prop
  | intro {before reads inside rest : List Exchange} {source : Nat} {item : Item} {round : Round}
    {after : Except Failure String × State → Process α} {behind : State}
    (leaves : ∀ exchange ∈ reads, exchange.request.Leaves source)
    (count : (itemsOf source reads).length = index)
    (begins : p.Passes (before ++ .takes source handle true :: (reads ++ [.brings source item]))
      ((round.process settings item).bind after))
    (apart : ∃ next, (round.process settings item).Numbered (fun _ _ => True) (source + 1) next)
    (returns : Returns source after)
    (ends : (round.process settings item).Passes inside (.done (out, behind))) :
    BodyEnds settings p handle index out
      (before ++ .takes source handle true :: (reads ++ .brings source item :: (inside ++ rest)))

/-- Whether the body of an iteration over a stream has failed for one of the items. -/
def BodyFails (settings : Settings) (p : Process α) (handle index : Nat) (history : List Exchange) : Prop :=
  ∃ failure, BodyEnds settings p handle index (.error failure) history

/-- A rendering whose body has failed for an item gives the source back, and has not asked for another
item. -/
theorem BodyFails.left {settings : Settings} {index : Nat}
    (fails : BodyFails settings p handle index history) (ends : p.Passes history (.done result))
    (once : askings handle history ≤ 1) :
    ∃ told, Standing.of handle history = .left (index + 1) true told := by
  obtain ⟨failure, fails⟩ := fails
  cases fails with
  | @intro before reads inside rest source item round after behind leaves count begins apart returns fails =>
    -- Behind the round the process asks to give the source back, and nothing else.
    have parts : before ++ .takes source handle true :: (reads ++ .brings source item :: (inside ++ rest)) =
        (before ++ .takes source handle true :: (reads ++ [.brings source item])) ++ (inside ++ rest) := by
      simp
    have behind_ : (after (.error failure, behind)).Passes rest (.done result) :=
      (fails.bind after).rest (begins.rest (parts ▸ ends))
    obtain ⟨answer, rest', rfl⟩ : ∃ answer rest', rest = ⟨.release source, answer⟩ :: rest' := by
      have asks := returns.failed failure behind
      cases rest with
      | nil =>
        rw [behind_.nil_eq] at asks
        cases asks
      | cons exchange rest' =>
        obtain ⟨holding, next, same, -⟩ := behind_.cons_inv
        rw [same] at asks
        obtain ⟨request, answer⟩ := exchange
        cases Option.some.inj asks
        exact ⟨answer, rest', rfl⟩
    have unasked : askings handle before = 0 := by
      have taken : (Exchange.takes source handle true).request.asksFor handle = true := decide_eq_true rfl
      rw [askings_append, askings_cons, if_pos taken] at once
      omega
    have quiet : ∀ exchange ∈ inside, exchange.request.source? ≠ some source := by
      obtain ⟨number, numbered⟩ := apart
      intro exchange listed about
      exact Nat.not_succ_le_self source (numbered.sources fails exchange listed source about)
    obtain ⟨busy, told, read⟩ := @Standing.foldl_leaves handle source 0 false false reads leaves
    refine ⟨told, ?_⟩
    rw [Standing.of, List.foldl_append, Standing.foldl_untouched unasked, List.foldl_cons,
      Standing.next_takes, List.foldl_append, read, List.foldl_cons, Standing.next_brings, List.foldl_append,
      Standing.foldl_apart quiet, List.foldl_cons, Standing.next_releases, Standing.foldl_left, Nat.zero_add,
      count]

end

end Stencil.Render
