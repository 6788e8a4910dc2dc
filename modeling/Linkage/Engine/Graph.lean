import Linkage.Engine.Analyzing

/-!
# Dependency graphs

From a root, the modules it statically leads to are walked depth first, each loaded and analyzed
once, and listed when all they lead to has been listed.  An edge to a module that is still being
walked closes a cycle and is noted as a back edge.  A settled module is a leaf, and so is a legacy
one.
-/

namespace Linkage

/-- The modules that a root leads to. -/
structure Graph where
  /-- Where the walk began. -/
  root : ModuleId
  /-- The modules, each after those it leads to, back edges apart. -/
  order : List ModuleId
  /-- The modules that each one asks for, by the text of its identifier. -/
  edges : Table (List ModuleId)
  /-- The edges that close a cycle, from the importer. -/
  backEdges : List (ModuleId × ModuleId)
deriving Inhabited

namespace Graph

/-- A graph without modules. -/
def empty (root : ModuleId) : Graph := ⟨root, [], {}, []⟩

/-- Number of modules. -/
def size (graph : Graph) : Nat := graph.order.length

/-- Whether there is no module. -/
def isEmpty (graph : Graph) : Bool := graph.order.isEmpty

/-- Whether a module belongs to the graph. -/
def contains (graph : Graph) (id : ModuleId) : Bool := graph.edges.contains id.text

/-- The modules that a module asks for. -/
def dependencies (graph : Graph) (id : ModuleId) : List ModuleId :=
  (graph.edges.find? id.text).getD []

/-- Whether there is a cycle. -/
def isCyclic (graph : Graph) : Bool := !graph.backEdges.isEmpty

/-- The place of a module in the order. -/
def position? (graph : Graph) (id : ModuleId) : Option Nat := graph.order.findIdx? (· = id)

/-- List a module with the modules it asks for. -/
def list (graph : Graph) (id : ModuleId) (dependencies : List ModuleId) : Graph :=
  { graph with
    order := graph.order ++ [id]
    edges := graph.edges.insert id.text dependencies }

/-- Note an edge that closes a cycle. -/
def closeCycle (graph : Graph) (importer imported : ModuleId) : Graph :=
  { graph with backEdges := graph.backEdges ++ [(importer, imported)] }

end Graph

namespace Attempt

/-- Walk the modules that one module asks for, then list it.  `above` are the modules being walked,
this one included; `fuel` bounds how many more can be walked at once. -/
def walk : Nat → List ModuleId → ModuleId → List ModuleId → Graph → Attempt Graph
  | 0, _, id, _, _ => throw (.load id "imports are nested too deeply")
  | fuel + 1, above, id, dependencies, graph => do
      let graph ← dependencies.foldlM (fun graph dependency => do
        if dependency ∈ above then return graph.closeCycle id dependency
        else if dependency ∈ graph.order then return graph
        else
          let (ref, record) ← registered dependency
          if record.status.isSettled then return graph.list dependency record.requested
          else
            let further ← analyze ref record
            walk fuel (dependency :: above) dependency further graph) graph
      return graph.list id dependencies

/-- Build the graph of a registered module. -/
def buildGraph (root : ModuleId) : Attempt Graph := do
  let (ref, record) ← registered root
  let dependencies ← analyze ref record
  walk (← get).reach [root] root dependencies (.empty root)

/-- Build the graph of an entry. -/
def graphOf (specifier : String) : Attempt Graph := do
  let (resolved, _) ← resolveAndRegister specifier none
  buildGraph resolved.id

end Attempt

end Linkage
