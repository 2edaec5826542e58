import ElementLocator.Document

/-!
# Outlines

An outline shows the tree below the document node with one line for each node, indented by two spaces for each
level. Texts are trimmed and left out when they are blank; attribute values stand as they are.
-/

namespace ElementLocator.Document

/-- A line of the outline at the given depth. -/
def outlineLine (depth : Nat) (line : String) : String :=
  String.ofList (List.replicate (2 * depth) ' ') ++ line ++ "\n"

/-- The line that shows a node, unless it is a blank text. -/
def outlineLabel? : Content → Option String
  | .document => some "#document"
  | .element tag attributes =>
    some ("<" ++ tag ++ String.join (attributes.map fun (name, value) => s!" {name}=\"{value}\"") ++ ">")
  | .text text => if Text.isBlank text then none else some ("\"" ++ Text.trim text ++ "\"")
  | .comment text => some ("<!--" ++ text ++ "-->")

/-- The lines of a node and of at most `bound` levels below it. -/
def outlineWithin (d : Document) : Nat → Nat → NodeId → String
  | 0, _, _ => ""
  | bound + 1, depth, n =>
    match (d.content? n).bind outlineLabel? with
    | none => ""
    | some label => outlineLine depth label ++
        String.join ((d.nodes.children n).map (outlineWithin d bound (depth + 1)))

/-- The outline of the document. -/
def outline (d : Document) : String := "Document\n" ++ d.outlineWithin d.size 1 root

end ElementLocator.Document
