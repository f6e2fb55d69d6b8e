/-!
# LogConsole.Dict

Finite maps from strings, kept in increasing order of their keys (the order of code points,
which is also the byte order of UTF-8).

* `Dict`            — the entries;
* `get?`, `insert`, `erase` — look-up and change, with `get?_insert` relating them;
* `keys`, `toList`  — the entries in order.
-/

namespace LogConsole

structure Dict (α : Type) where
  entries : List (String × α) := []
  deriving Repr

namespace Dict

variable {α : Type}

def empty : Dict α := ⟨[]⟩

instance : Inhabited (Dict α) := ⟨empty⟩

instance [DecidableEq α] : DecidableEq (Dict α) := fun a b =>
  decidable_of_iff (a.entries = b.entries) (by cases a; cases b; simp)

def find? (key : String) : List (String × α) → Option α
  | [] => none
  | (k, v) :: rest => if k = key then some v else find? key rest

def put (key : String) (value : α) : List (String × α) → List (String × α)
  | [] => [(key, value)]
  | (k, v) :: rest =>
    if k = key then (key, value) :: rest
    else if key < k then (key, value) :: (k, v) :: rest
    else (k, v) :: put key value rest

def get? (d : Dict α) (key : String) : Option α := find? key d.entries

def contains (d : Dict α) (key : String) : Bool := (d.get? key).isSome

def insert (d : Dict α) (key : String) (value : α) : Dict α := ⟨put key value d.entries⟩

def erase (d : Dict α) (key : String) : Dict α := ⟨d.entries.filter fun e => e.1 != key⟩

def toList (d : Dict α) : List (String × α) := d.entries

def keys (d : Dict α) : List String := d.entries.map (·.1)

def values (d : Dict α) : List α := d.entries.map (·.2)

def ofList (entries : List (String × α)) : Dict α :=
  entries.foldl (fun d e => d.insert e.1 e.2) empty

@[simp] theorem get?_empty (key : String) : (empty : Dict α).get? key = none := rfl

theorem find?_put (key key' : String) (value : α) (entries : List (String × α)) :
    find? key' (put key value entries) = if key = key' then some value else find? key' entries := by
  induction entries with
  | nil => simp [put, find?]
  | cons e rest ih =>
    obtain ⟨k, v⟩ := e
    simp only [put]
    by_cases h : k = key
    · subst h
      by_cases h' : k = key' <;> simp [find?, h']
    · rw [if_neg h]
      by_cases hlt : key < k
      · simp [hlt, find?]
      · rw [if_neg hlt]
        simp only [find?, ih]
        by_cases h1 : k = key'
        · subst h1
          simp [Ne.symm h]
        · simp [h1]

theorem get?_insert (d : Dict α) (key key' : String) (value : α) :
    (d.insert key value).get? key' = if key = key' then some value else d.get? key' :=
  find?_put key key' value d.entries

@[simp] theorem get?_insert_self (d : Dict α) (key : String) (value : α) :
    (d.insert key value).get? key = some value := by
  simp [get?_insert]

end Dict

end LogConsole
