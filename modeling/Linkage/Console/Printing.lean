import Linkage.Console.Style
import Linkage.Engine.Graph

/-!
# What the console prints

Values, namespaces, statuses, graphs and errors as coloured text.
-/

namespace Linkage.Console

/-- The text of a number: positional, and infinities by name. -/
def numberLayout : Decimal.Layout :=
  { Value.numberLayout with infinity := "Infinity" }

/-- A value. -/
def valueText (heap : Heap) : Value → String
  | .undefined => dimmed (blue "undefined")
  | .null => blue "null"
  | .boolean value => yellow (if value then "true" else "false")
  | .number value => yellow (numberLayout.write value)
  | .text value => green s!"'{value}'"
  | .object ref => cyan ((Value.object ref).toJson heap).compact
  | .space found => magenta (Value.spaceText found)

/-- One name of a namespace with its value, or with the reason why it cannot be read. -/
def entryText (heap : Heap) (name : String) : Except ModuleError Value → String
  | .ok value => s!"  {name}: {valueText heap value}"
  | .error error =>
      let shown := if error.isUninitialized then dimmed "<uninitialized>"
        else red s!"<{error.message}>"
      s!"  {name}: {shown}"

/-- A namespace with every name it shows. -/
def spaceText (store : Store) (found : Namespace) : String × Store :=
  let header := bold (magenta (Value.spaceText found))
  match store.entriesOf found with
  | (.error error, store) => (header ++ " " ++ red error.message, store)
  | (.ok [], store) => (header ++ " \x7b\x7d", store)
  | (.ok entries, store) =>
      let lines := entries.map (fun entry => entryText store.heap entry.1 entry.2)
      (header ++ " \x7b\n" ++ ",\n".intercalate lines ++ "\n\x7d", store)

/-- A status, ten columns wide. -/
def statusText (status : Status) : String :=
  let label := padRight 10 status.name
  match status with
  | .evaluated => green label
  | .errored => red label
  | .evaluating | .linking => yellow label
  | .linked | .unlinked => dimmed label

/-- The lines of a graph: each module in order with the modules it asks for. -/
def graphLines (graph : Graph) (store : Store) : List String :=
  (graph.order.zipIdx 1).flatMap (fun (id, number) =>
    let format := ((store.find? id).map (·.format.name)).getD ""
    let count := String.ofList (Nat.toDigits 10 number)
    let head := s!"{padLeft 4 count}. {brightWhite id.text} {dimmed format}"
    head :: (graph.dependencies id).map (fun dependency =>
      let edge := "        " ++ dimmed "->" ++ " " ++ dependency.text
      if (id, dependency) ∈ graph.backEdges then edge ++ " " ++ yellow "(cycle)" else edge))

/-- An error: what stands before the first colon is the kind of error and stands out. -/
def errorText (error : ModuleError) : String :=
  let cs := error.message.toList
  match cs.dropWhile (· ≠ ':') with
  | [] => red error.message
  | rest => bold (red (String.ofList (cs.takeWhile (· ≠ ':')))) ++ String.ofList rest

end Linkage.Console
