import MappingSweep.Config.Tree
import MappingSweep.Proofs.Number.Decimal
import MappingSweep.Proofs.Text.Pieces

/-!
# Dotted paths

A dotted path leads where its parts lead one after the other, and it may be cut at any dot.  Keys
without dots in them and decimal indices are the parts of the path that they are joined to, so every
node below a tree that is reached by such steps is found under the dotted path of the steps.
-/

namespace MappingSweep
namespace Config

open Number (decimal)

variable {s t u : Config}

/-- Where the parts of a path lead. -/
def descend (t : Config) (parts : List (List Char)) : Option Config :=
  parts.foldlM (fun node key => node.child? key) t

theorem lookup_eq (t : Config) (dotted : String) :
    t.lookup dotted = t.descend (Text.splitOn '.' dotted.toList) :=
  rfl

@[simp] theorem descend_nil (t : Config) : t.descend [] = some t :=
  rfl

@[simp] theorem descend_cons (t : Config) (part : List Char) (more : List (List Char)) :
    t.descend (part :: more) = (t.child? part).bind fun node => node.descend more :=
  List.foldlM_cons ..

theorem descend_append (t : Config) (parts more : List (List Char)) :
    t.descend (parts ++ more) = (t.descend parts).bind fun node => node.descend more :=
  List.foldlM_append ..

/-- A path may be cut at any dot. -/
theorem lookup_append (t : Config) (front back : String) :
    t.lookup (front ++ "." ++ back) = (t.lookup front).bind fun node => node.lookup back := by
  have hchars : (front ++ "." ++ back).toList = front.toList ++ '.' :: back.toList := by simp
  rw [lookup_eq, hchars, Text.splitOn_append_sep, descend_append]
  rfl

/-- One step down a tree, to what a map holds under a key or to what stands at an index of a
list. -/
inductive Step where
  | key (k : String)
  | index (i : UInt64)
deriving DecidableEq

namespace Step

def text : Step → String
  | key k => k
  | index i => decimal i.toNat

def Dotless : Step → Prop
  | key k => '.' ∉ k.toList
  | index _ => True

instance : (step : Step) → Decidable step.Dotless
  | key k => inferInstanceAs (Decidable ('.' ∉ k.toList))
  | index _ => inferInstanceAs (Decidable True)

end Step

/-- The steps lead from a tree to a node of it. -/
inductive Reaches : Config → List Step → Config → Prop where
  | here (t : Config) : Reaches t [] t
  | key {entries : Entries} {k : String} {steps : List Step} {u s : Config}
      (held : Keyed.get? k entries = some u) (below : Reaches u steps s) :
      Reaches (.map entries) (.key k :: steps) s
  | index {items : List Config} {i : UInt64} {steps : List Step} {u s : Config}
      (held : items[i.toNat]? = some u) (below : Reaches u steps s) :
      Reaches (.list items) (.index i :: steps) s

/-- The text of the steps, with dots between them. -/
def dotted (steps : List Step) : String :=
  ".".intercalate (steps.map Step.text)

theorem Step.dot_not_mem_text {step : Step} (h : step.Dotless) : '.' ∉ step.text.toList := by
  cases step with
  | key k => exact h
  | index i => exact Number.not_mem_decimal rfl i.toNat

theorem lookup_dotted {steps : List Step} (hne : steps ≠ []) (hdots : ∀ step ∈ steps, step.Dotless)
    (t : Config) :
    t.lookup (dotted steps) = t.descend (steps.map fun step => step.text.toList) := by
  rw [lookup_eq, dotted, String.toList_intercalate, List.map_map]
  refine congrArg t.descend (Text.splitOn_intercalate (by simpa using hne) fun part hpart => ?_)
  obtain ⟨step, hstep, rfl⟩ := List.mem_map.mp hpart
  exact Step.dot_not_mem_text (hdots step hstep)

theorem Reaches.descend {steps : List Step} (h : Reaches t steps s) :
    t.descend (steps.map fun step => step.text.toList) = some s := by
  induction h with
  | here t => exact descend_nil t
  | @key entries k steps u s held below ih =>
    have hchild : child? k.toList (.map entries) = some u := by
      rw [child?, String.ofList_toList, held]
    rw [List.map_cons, descend_cons, Step.text, hchild]
    exact ih
  | @index items i steps u s held below ih =>
    have hchild : child? (decimal i.toNat).toList (.list items) = some u := by
      rw [child?, decimal, String.toList_ofList, Number.readWord_digits, Option.bind_some, held]
    rw [List.map_cons, descend_cons, Step.text, hchild]
    exact ih

/-- A dotted path leads where its back part leads from where its front part leads, and the dotted
path of steps without dots leads to the node that the steps reach. -/
theorem lookup_composes (t : Config) :
    (∀ front back : String, t.lookup (front ++ "." ++ back) =
      (t.lookup front).bind fun node => node.lookup back) ∧
    ∀ steps s, steps ≠ [] → (∀ step ∈ steps, step.Dotless) → Reaches t steps s →
      t.lookup (dotted steps) = some s := by
  refine ⟨t.lookup_append, fun steps s hne hdots hreaches => ?_⟩
  rw [lookup_dotted hne hdots]
  exact hreaches.descend

/-- A plugin that writes to a file. -/
def recorder : Config :=
  .map [("ControllerPlugin", .map [("impl", .str "CommandRecorder"), ("path", .str "out.log")])]

/-- A tree that names two plugins. -/
def pluginTree : Config :=
  .map [("MemorySystem",
    .map [("Controller", .map [("plugins", .list [.str "Counter", recorder])])])]

def pathSteps : List Step :=
  [.key "MemorySystem", .key "Controller", .key "plugins", .index 1, .key "ControllerPlugin",
    .key "path"]

theorem reaches_pathSteps : Reaches pluginTree pathSteps (.str "out.log") :=
  .key rfl (.key rfl (.key rfl (.index rfl (.key rfl (.key rfl (.here _))))))

theorem lookup_composes_pluginTree :
    pathSteps ≠ [] ∧ (∀ step ∈ pathSteps, step.Dotless) ∧
      Reaches pluginTree pathSteps (.str "out.log") ∧
      dotted pathSteps = "MemorySystem.Controller.plugins.1.ControllerPlugin.path" ∧
      pluginTree.lookup "MemorySystem.Controller.plugins.1.ControllerPlugin.path" =
        some (.str "out.log") ∧
      (pluginTree.lookup "MemorySystem.Controller.plugins").bind
        (fun node => node.lookup "1.ControllerPlugin.path") = some (.str "out.log") := by
  have hne : pathSteps ≠ [] := by decide
  have hdots : ∀ step ∈ pathSteps, step.Dotless := by decide
  have htext : dotted pathSteps = "MemorySystem.Controller.plugins.1.ControllerPlugin.path" := by
    decide +kernel
  obtain ⟨hcut, hreached⟩ := lookup_composes pluginTree
  have hpath := hreached pathSteps _ hne hdots reaches_pathSteps
  rw [htext] at hpath
  refine ⟨hne, hdots, reaches_pathSteps, htext, hpath, ?_⟩
  rw [← hcut]
  exact hpath

end Config
end MappingSweep
