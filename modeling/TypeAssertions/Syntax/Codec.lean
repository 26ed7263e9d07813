import TypeAssertions.Json.Decoder
import TypeAssertions.Json.Printer
import TypeAssertions.Syntax.Arena

/-!
# Syntax arenas as JSON

An arena is an array of nodes.  A node of an unknown kind is one of the other nodes, and a node
may leave out its list of children.
-/

namespace TypeAssertions

open Json

namespace NodeIndex

/-- The JSON form of an index. -/
def toJson (i : NodeIndex) : Value := .ofNat i.index.toNat

/-- A reader of indices. -/
def decoder : Decoder NodeIndex := Decoder.uint32.map NodeIndex.mk

end NodeIndex

namespace Node

/-- The JSON form of a node. -/
def toJson (n : Node) : Value :=
  .object
    [("kind", .string n.kind.name), ("pos", .ofNat n.start.toNat), ("end", .ofNat n.stop.toNat),
      ("children", .array (n.children.map NodeIndex.toJson))]

/-- The fields of a node that have been read. -/
structure Draft where
  kind : Option NodeKind := none
  start : Option UInt32 := none
  stop : Option UInt32 := none
  children : Option (List NodeIndex) := none

/-- The node of a draft. -/
def Draft.complete (d : Draft) : Except String Node := do
  let some kind := d.kind | throw "kind"
  let some start := d.start | throw "pos"
  let some stop := d.stop | throw "end"
  return ⟨kind, start, stop, d.children.getD []⟩

/-- How a node is read. -/
def shape : RecordShape Draft Node where
  name := "Node"
  fields :=
    [.of "kind" true Draft.kind (fun d kind => { d with kind })
        (.choice NodeKind.byName (some .other)),
      .of "pos" true Draft.start (fun d start => { d with start }) .uint32,
      .of "end" true Draft.stop (fun d stop => { d with stop }) .uint32,
      .of "children" false Draft.children (fun d children => { d with children })
        (.list NodeIndex.decoder)]
  start := {}
  complete := Draft.complete

/-- A reader of nodes. -/
def decoder : Decoder Node := shape.decoder

end Node

namespace Arena

/-- The JSON form of an arena. -/
def toJson (a : Arena) : Value := .array (a.nodes.map Node.toJson)

/-- A reader of arenas. -/
def decoder : Decoder Arena := (Decoder.list Node.decoder).map Arena.mk

end Arena

end TypeAssertions
