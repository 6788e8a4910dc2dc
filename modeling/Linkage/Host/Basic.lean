import Linkage.Error
import Linkage.Program

/-!
# Hosts

A host is where modules come from: it says which identifiers exist, what bare specifiers stand for,
what format a module is known to have, and gives sources.  `Host.Covers` says that only finitely
many modules exist and that `size` bounds their number.
-/

namespace Linkage

/-- Where modules come from. -/
structure Host where
  /-- Whether a module exists. -/
  holds : ModuleId → Bool
  /-- The path that a bare specifier stands for, as seen from a module. -/
  resolveBare : String → Option ModuleId → Option ModuleId
  /-- The format that a module is known to have. -/
  formatHint : ModuleId → Option Format
  /-- The source of a module, given at once. -/
  load : ModuleId → Except ModuleError ModuleSource
  /-- The source of a module, given to a caller that does not wait. -/
  fetch : ModuleId → Except ModuleError ModuleSource
  /-- At least as many as there are modules. -/
  size : Nat

instance : Inhabited Host :=
  ⟨⟨fun _ => false, fun _ _ => none, fun _ => none, fun id => .error (.load id ""),
    fun id => .error (.load id ""), 0⟩⟩

/-- Every module that exists stands in a list no longer than the size of the host. -/
def Host.Covers (host : Host) (ids : List ModuleId) : Prop :=
  ids.length ≤ host.size ∧ ∀ id, host.holds id = true → id ∈ ids

end Linkage
