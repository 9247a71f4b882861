import VocabPhp.Json.Record
import VocabPhp.Vocabulary.Basic

/-!
# Vocabulary documents

A document is an object whose `@graph` lists the nodes; the other members do not matter. It can be
read from its text, where only the nodes are kept, or found in a value that has been read already.

* `Document.nodesOfText`: the nodes of a document's text, which may also be an array with the list
  of nodes as its only element.
* `Document.nodes?`: the nodes of a document that is a value.
-/

namespace VocabPhp

/-- Why a document has no nodes. -/
inductive DocumentError
  | unreadable (fault : Json.Fault)
  | missingGraph
  deriving DecidableEq, Repr

/-- The text for an error. What is wrong with a text that is no JSON is not told. -/
def DocumentError.message : DocumentError → String
  | unreadable _ => "failed to decode vocabulary document"
  | missingGraph => "unrecognized data structure: document has no `@graph` sequence"

namespace Document

open Json

/-- Reads the list of nodes. Document and list are open while a node is read. -/
def nodeList : Reader (List Json) := Reader.arrayOf (Reader.value .keep (maxDepth - 2))

/-- The nodes of a document's text. -/
def nodesOfText (text : String) : Except DocumentError (List Json) :=
  match Reader.whole (Reader.oneField "@graph" (Reader.nullOr nodeList)) text with
  | .error fault => .error (.unreadable fault)
  | .ok (some (some nodes)) => .ok nodes
  | .ok _ => .error .missingGraph

/-- The nodes of a document. -/
def nodes? (document : Json) : Option (List Json) := (document.field? "@graph").bind Json.array?

end Document

/-- Why a document has no vocabulary. -/
inductive VocabularyError
  | document (e : DocumentError)
  | node (e : NodeError)
  deriving DecidableEq, Repr

/-- The text for an error. -/
def VocabularyError.message : VocabularyError → String
  | document e => e.message
  | node e => e.message

/-- The vocabulary of a document. -/
def Vocabulary.ofDocument (ns : Namespace) (document : Json) : Except VocabularyError Vocabulary :=
  match Document.nodes? document with
  | none => .error (.document .missingGraph)
  | some nodes =>
    match ofNodes ns nodes with
    | .error e => .error (.node e)
    | .ok v => .ok v

/-- The vocabulary of a document's text. -/
def Vocabulary.ofText (ns : Namespace) (text : String) : Except VocabularyError Vocabulary :=
  match Document.nodesOfText text with
  | .error e => .error (.document e)
  | .ok nodes =>
    match ofNodes ns nodes with
    | .error e => .error (.node e)
    | .ok v => .ok v

end VocabPhp
