import Orchestra.Signature
import Orchestra.Text.Case

namespace Orchestra

class Described (F : Type) where
  signature : F → Signature

export Described (signature)

/-- What a function is found by: plugin and name, both in lowercase. -/
structure FunctionKey where
  plugin : String
  name : String
deriving DecidableEq

namespace FunctionKey

/-- No plugin and the empty plugin both mean the global one. -/
def of (plugin : Option String) (name : String) : FunctionKey :=
  ⟨Text.lowercase (Signature.pluginOf (plugin.getD "")), Text.lowercase name⟩

def ofSignature (s : Signature) : FunctionKey :=
  of (some s.plugin) s.name

end FunctionKey

variable {F : Type} [Described F]

def keyOf (f : F) : FunctionKey :=
  .ofSignature (signature f)

/-- The functions that can be called, at most one under each key. -/
@[ext] structure Registry (F : Type) [Described F] where
  functions : List F
  distinct : functions.Pairwise fun f g => keyOf f ≠ keyOf g

namespace Registry

def empty : Registry F where
  functions := []
  distinct := .nil

instance : Inhabited (Registry F) := ⟨empty⟩

def find? (r : Registry F) (key : FunctionKey) : Option F :=
  r.functions.find? fun f => keyOf f = key

def erase (r : Registry F) (key : FunctionKey) : Registry F where
  functions := r.functions.filter fun f => keyOf f ≠ key
  distinct := r.distinct.filter _

def register (r : Registry F) (f : F) : Registry F where
  functions := f :: (r.erase (keyOf f)).functions
  distinct := by
    refine List.pairwise_cons.2 ⟨fun g hg => ?_, (r.erase (keyOf f)).distinct⟩
    have h := (List.mem_filter.1 hg).2
    exact fun e => by simp [e] at h

def resolve? (r : Registry F) (plugin : Option String) (name : String) : Option F :=
  r.find? (.of plugin name)

def contains (r : Registry F) (plugin : Option String) (name : String) : Bool :=
  (r.resolve? plugin name).isSome

def unregister (r : Registry F) (plugin : Option String) (name : String) :
    Option F × Registry F :=
  (r.resolve? plugin name, r.erase (.of plugin name))

def count (r : Registry F) : Nat :=
  r.functions.length

def signatures (r : Registry F) : List Signature :=
  r.functions.map signature

def views (r : Registry F) : List Signature :=
  r.signatures.mergeSort fun a b => a.plugin < b.plugin || (a.plugin = b.plugin && a.name ≤ b.name)

def pluginViews (r : Registry F) (plugin : String) : List Signature :=
  (r.signatures.filter fun s => (FunctionKey.ofSignature s).plugin = Text.lowercase plugin).mergeSort
    fun a b => a.name ≤ b.name

theorem find?_erase (r : Registry F) (key other : FunctionKey) :
    (r.erase key).find? other = if key = other then none else r.find? other := by
  simp only [find?, erase, List.find?_filter]
  split
  · rename_i h
    simp [h]
  · rename_i h
    congr 1
    funext f
    by_cases hf : keyOf f = other
    · simp [hf, Ne.symm h]
    · simp [hf]

theorem find?_register (r : Registry F) (f : F) (key : FunctionKey) :
    (r.register f).find? key = if keyOf f = key then some f else r.find? key := by
  by_cases h : keyOf f = key
  · simp [register, find?, h]
  · simpa [register, find?, h] using r.find?_erase (keyOf f) key

theorem keyOf_of_find? {r : Registry F} {key : FunctionKey} {f : F} (h : r.find? key = some f) :
    keyOf f = key := by
  simpa using List.find?_some h

end Registry

end Orchestra
