namespace PatternAction

-- A finite map that keeps the order in which names came.
structure Table (α : Type) where
  entries : List (String × α) := []

namespace Table

variable {α : Type}

def empty : Table α := {}

def get? (t : Table α) (k : String) : Option α := go t.entries
where
  go : List (String × α) → Option α
    | [] => none
    | (k', v) :: rest => if k' = k then some v else go rest

def contains (t : Table α) (k : String) : Bool := (t.get? k).isSome

def keys (t : Table α) : List String := t.entries.map Prod.fst

-- Stores a value under a name, in the place of the value there was.
def insert (t : Table α) (k : String) (v : α) : Table α := ⟨go t.entries⟩
where
  go : List (String × α) → List (String × α)
    | [] => [(k, v)]
    | (k', v') :: rest => if k' = k then (k, v) :: rest else (k', v') :: go rest

def erase (t : Table α) (k : String) : Table α :=
  ⟨t.entries.filter fun e => e.1 ≠ k⟩

def restrict (t : Table α) (p : String → Bool) : Table α :=
  ⟨t.entries.filter fun e => p e.1⟩

def ofList (entries : List (String × α)) : Table α :=
  entries.foldl (fun t (k, v) => t.insert k v) {}

-- Values under the names "0", "1" and so on.
def numbered (vs : List α) : Table α :=
  ⟨vs.zipIdx.map fun (v, i) => (toString i, v)⟩

@[simp] theorem get?_empty (k : String) : (empty : Table α).get? k = none := rfl

theorem get?_insert (t : Table α) (k k' : String) (v : α) :
    (t.insert k v).get? k' = if k' = k then some v else t.get? k' := by
  obtain ⟨es⟩ := t
  simp only [insert, get?]
  induction es with
  | nil => simp [insert.go, get?.go, eq_comm]
  | cons e es ih =>
    obtain ⟨a, b⟩ := e
    simp only [insert.go, get?.go]
    split <;> simp only [get?.go] <;> grind

@[simp] theorem get?_insert_self (t : Table α) (k : String) (v : α) :
    (t.insert k v).get? k = some v := by
  simp [get?_insert]

theorem get?_restrict (t : Table α) (p : String → Bool) (k : String) :
    (t.restrict p).get? k = if p k then t.get? k else none := by
  obtain ⟨es⟩ := t
  simp only [restrict, get?]
  induction es with
  | nil => simp [get?.go]
  | cons e es ih =>
    obtain ⟨a, b⟩ := e
    simp only [List.filter_cons, get?.go]
    split <;> grind [get?.go]

theorem get?_erase (t : Table α) (k k' : String) :
    (t.erase k).get? k' = if k' = k then none else t.get? k' := by
  have := get?_restrict t (fun x => x ≠ k) k'
  by_cases h : k' = k <;> simpa [erase, restrict, h] using this

end Table

end PatternAction
