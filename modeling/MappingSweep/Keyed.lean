/-!
# Entries under text keys

Lists of entries in the order of their keys, each key at most once.  Setting a key replaces its
entry or puts a new one before the first greater key; the keys compare by their code points.
-/

namespace MappingSweep

abbrev Keyed (α : Type) : Type :=
  List (String × α)

namespace Keyed

variable {α : Type}

def get? (key : String) (entries : Keyed α) : Option α :=
  entries.lookup key

def insert (key : String) (value : α) : Keyed α → Keyed α
  | [] => [(key, value)]
  | (k, v) :: rest =>
    if key = k then (k, value) :: rest
    else if key < k then (key, value) :: (k, v) :: rest
    else (k, v) :: insert key value rest

/-- Entries in the order of their keys; of equal keys the last one counts. -/
def ofList (entries : List (String × α)) : Keyed α :=
  entries.foldl (fun acc e => insert e.1 e.2 acc) []

@[simp] theorem get?_nil (key : String) : get? key ([] : Keyed α) = none :=
  rfl

@[simp] theorem get?_cons (key k : String) (v : α) (es : Keyed α) :
    get? key ((k, v) :: es) = if key = k then some v else get? key es := by
  unfold get?
  by_cases h : key = k
  · simp [h]
  · have : (key == k) = false := by simpa using h
    simp [List.lookup_cons, this, h]

theorem get?_insert (other key : String) (value : α) (es : Keyed α) :
    get? other (insert key value es) = if other = key then some value else get? other es := by
  induction es with
  | nil => simp [insert]
  | cons e es ih =>
    obtain ⟨k, v⟩ := e
    unfold insert
    by_cases hk : key = k
    · subst hk
      by_cases ho : other = key <;> simp [ho]
    · by_cases hlt : key < k
      · simp [hk, hlt]
      · simp only [hk, hlt, if_false, get?_cons, ih]
        by_cases ho : other = key
        · simp [ho, hk]
        · simp [ho]

end Keyed
end MappingSweep
