import ElementLocator.Document
import ElementLocator.Json.Value

/-!
# Snapshots

A snapshot is the part of a document that carries meaning. Comments are left out, texts that become neighbours
are joined, texts that are all white space are dropped, and attributes are sorted by name.
-/

namespace ElementLocator

/-- A node of a snapshot. -/
inductive Snapshot where
  | text (content : String)
  | element (tag : String) (attributes : List (String × String)) (children : List Snapshot)

namespace Snapshot

/-- A collected text in front of later nodes, unless it is blank. -/
def flush (collected : String) (later : List Snapshot) : List Snapshot :=
  if Text.isBlank collected then later else .text collected :: later

/-- Joins the texts that no element separates; `collected` is the text since the last element. -/
def joinTexts (collected : String) : List Snapshot → List Snapshot
  | [] => flush collected []
  | .text content :: rest => joinTexts (collected ++ content) rest
  | .element tag attributes children :: rest =>
    flush collected (.element tag attributes children :: joinTexts "" rest)

/-- The attributes sorted by name. -/
def sortByName (attributes : List (String × String)) : List (String × String) :=
  attributes.mergeSort fun a b => decide (a.1 ≤ b.1)

mutual

/-- The JSON object of a node, its keys sorted. -/
def toJson : Snapshot → Json
  | .text content => .object [("text", .string content), ("type", .string "text")]
  | .element tag attributes children =>
    .object [("attrs", .object (attributes.map fun (name, value) => (name, .string value))),
      ("children", .array (listToJson children)), ("tag", .string tag), ("type", .string "element")]

/-- The JSON objects of the nodes in order. -/
def listToJson : List Snapshot → List Json
  | [] => []
  | node :: rest => toJson node :: listToJson rest

end

end Snapshot

namespace Document

/-- What a node contributes to the snapshot, before texts are joined: itself with at most `bound` levels below
it, or nothing for a comment. -/
def snapshotWithin (d : Document) : Nat → NodeId → List Snapshot
  | 0, _ => []
  | bound + 1, n =>
    match d.content? n with
    | some (.text text) => [.text text]
    | some (.element tag attributes) =>
      [.element tag (Snapshot.sortByName attributes)
        (Snapshot.joinTexts "" ((d.nodes.children n).flatMap (snapshotWithin d bound)))]
    | _ => []

/-- The snapshot of a document: the nodes below the document node. -/
def snapshot (d : Document) : List Snapshot :=
  Snapshot.joinTexts "" ((d.nodes.children root).flatMap (d.snapshotWithin d.size))

/-- The snapshot as one JSON object, its keys sorted. -/
def toJson (d : Document) : Json :=
  .object [("children", .array (Snapshot.listToJson d.snapshot)), ("type", .string "document")]

end Document

end ElementLocator
