/-!
# Tables

A table is a list of entries that keeps the order in which its keys were first put. A key that
is put again keeps its place and takes the new value (`get?_put`).
-/

set_option autoImplicit false

namespace Stencil.Table

variable {α : Type}

/-- Puts a value under a key. A key that is there already keeps its place. -/
def put (entries : List (String × α)) (key : String) (value : α) : List (String × α) :=
  match entries with
  | [] => [(key, value)]
  | (k, v) :: rest => if k = key then (key, value) :: rest else (k, v) :: put rest key value

/-- The value under a key. -/
def get? (entries : List (String × α)) (key : String) : Option α :=
  (entries.find? fun entry => entry.1 = key).map (·.2)

/-- The keys, in the order of the table. -/
def keys (entries : List (String × α)) : List String := entries.map (·.1)

/-- What was put under a key is found there. -/
theorem get?_put_self (entries : List (String × α)) (key : String) (value : α) :
    get? (put entries key value) key = some value := by
  induction entries with
  | nil => simp [put, get?]
  | cons entry rest ih =>
    by_cases h : entry.1 = key
    · simp [put, get?, h]
    · simpa [put, get?, h] using ih

/-- Putting a value leaves what is under other keys. -/
theorem get?_put_ne (entries : List (String × α)) {key other : String} (value : α)
    (h : other ≠ key) : get? (put entries key value) other = get? entries other := by
  induction entries with
  | nil => simp [put, get?, Ne.symm h]
  | cons entry rest ih =>
    by_cases hk : entry.1 = key
    · simp [put, get?, hk, Ne.symm h]
    · by_cases ho : entry.1 = other
      · simp [put, get?, ho, h]
      · simpa [put, get?, hk, ho] using ih

/-- What is found under a key after a value was put. -/
theorem get?_put (entries : List (String × α)) (key other : String) (value : α) :
    get? (put entries key value) other = if other = key then some value else get? entries other := by
  by_cases h : other = key
  · simp [h, get?_put_self]
  · simp [h, get?_put_ne]

/-- A new key is put behind the others. -/
theorem keys_put (entries : List (String × α)) (key : String) (value : α) :
    keys (put entries key value)
      = if key ∈ keys entries then keys entries else keys entries ++ [key] := by
  induction entries with
  | nil => simp [put, keys]
  | cons entry rest ih =>
    by_cases h : entry.1 = key
    · simp [put, keys, h]
    · simp only [keys] at ih
      by_cases hr : key ∈ rest.map (·.1) <;>
        simp_all [put, keys, Ne.symm h]

end Stencil.Table
