import MappingSweep.Yaml.Value

/-!
# Equal values

Induction on values, and equality of values as a test that can be run.
-/

namespace MappingSweep
namespace Yaml
namespace Value

/-- Proves something of every value from its parts up; of a mapping's parts, the contents. -/
theorem induction {p : Value → Prop} (null : p .null) (bool : ∀ b, p (.bool b))
    (number : ∀ n, p (.number n)) (string : ∀ s, p (.string s))
    (sequence : ∀ items, (∀ v ∈ items, p v) → p (.sequence items))
    (mapping : ∀ entries, (∀ e ∈ entries, p e.1) → (∀ e ∈ entries, p e.2) → p (.mapping entries))
    (tagged : ∀ tag v, p v → p (.tagged tag v)) : ∀ v, p v
  | .null => null
  | .bool b => bool b
  | .number n => number n
  | .string s => string s
  | .sequence items =>
    sequence items fun v _ => induction null bool number string sequence mapping tagged v
  | .mapping entries =>
    mapping entries
      (fun e _ => induction null bool number string sequence mapping tagged e.1)
      (fun e _ => induction null bool number string sequence mapping tagged e.2)
  | .tagged tag v =>
    tagged tag v (induction null bool number string sequence mapping tagged v)
termination_by v => v
decreasing_by
  · decreasing_tactic
  · rename_i he
    have hentry := List.sizeOf_lt_of_mem he
    obtain ⟨k, v⟩ := e
    simp only [Prod.mk.sizeOf_spec, Value.mapping.sizeOf_spec] at hentry ⊢
    omega
  · rename_i he
    have hentry := List.sizeOf_lt_of_mem he
    obtain ⟨k, v⟩ := e
    simp only [Prod.mk.sizeOf_spec, Value.mapping.sizeOf_spec] at hentry ⊢
    omega
  · decreasing_tactic

mutual

def beq : Value → Value → Bool
  | null, null => true
  | bool a, bool b => a == b
  | number m, number n => decide (m = n)
  | string s, string t => s == t
  | sequence xs, sequence ys => beqItems xs ys
  | mapping xs, mapping ys => beqEntries xs ys
  | tagged s v, tagged t w => s == t && beq v w
  | _, _ => false

def beqItems : List Value → List Value → Bool
  | [], [] => true
  | x :: xs, y :: ys => beq x y && beqItems xs ys
  | _, _ => false

def beqEntries : List (Value × Value) → List (Value × Value) → Bool
  | [], [] => true
  | (k, v) :: xs, (l, w) :: ys => beq k l && beq v w && beqEntries xs ys
  | _, _ => false

end

theorem beqItems_iff {xs : List Value} (h : ∀ x ∈ xs, ∀ y, beq x y = true ↔ x = y)
    (ys : List Value) : beqItems xs ys = true ↔ xs = ys := by
  induction xs generalizing ys with
  | nil => cases ys <;> simp [beqItems]
  | cons x xs ih =>
    have hx := h x List.mem_cons_self
    have hxs := ih fun x hx => h x (List.mem_cons_of_mem _ hx)
    cases ys <;> simp [beqItems, hx, hxs]

theorem beqEntries_iff {xs : List (Value × Value)}
    (hkeys : ∀ e ∈ xs, ∀ w, beq e.1 w = true ↔ e.1 = w)
    (hcontents : ∀ e ∈ xs, ∀ w, beq e.2 w = true ↔ e.2 = w) (ys : List (Value × Value)) :
    beqEntries xs ys = true ↔ xs = ys := by
  induction xs generalizing ys with
  | nil => cases ys <;> simp [beqEntries]
  | cons e xs ih =>
    obtain ⟨k, v⟩ := e
    have hk := hkeys (k, v) List.mem_cons_self
    have hv := hcontents (k, v) List.mem_cons_self
    have hxs := ih (fun e he => hkeys e (List.mem_cons_of_mem _ he))
      fun e he => hcontents e (List.mem_cons_of_mem _ he)
    cases ys <;> simp_all [beqEntries, Prod.ext_iff]

theorem beq_iff_eq (v : Value) : ∀ w, beq v w = true ↔ v = w := by
  induction v using Value.induction with
  | null => intro w; cases w <;> simp [beq]
  | bool b => intro w; cases w <;> simp [beq]
  | number n => intro w; cases w <;> simp [beq]
  | string s => intro w; cases w <;> simp [beq]
  | sequence items ih => intro w; cases w <;> simp [beq, beqItems_iff ih]
  | mapping entries ihkeys ihcontents =>
    intro w
    cases w <;> simp [beq, beqEntries_iff ihkeys ihcontents]
  | tagged tag v ih => intro w; cases w <;> simp [beq, ih]

instance : DecidableEq Value :=
  fun v w => decidable_of_iff _ (beq_iff_eq v w)

end Value
end Yaml
end MappingSweep
