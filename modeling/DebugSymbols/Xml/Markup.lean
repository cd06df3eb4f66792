import DebugSymbols.Text.Attribute

/-!
# XML markup

The parts of an XML text that a symbol store needs: the declaration at its head, and tags with
attributes. Values of attributes are escaped when they are made; numbers, tokens and GUIDs have
nothing to escape.
-/

namespace DebugSymbols.Xml

/-- An attribute with its value as it stands between the quotes. -/
structure Attribute where
  key : String
  value : String
deriving DecidableEq, Repr

namespace Attribute

/-- An attribute whose value holds no character that markup uses. -/
def plain (key value : String) : Attribute := ⟨key, value⟩

/-- An attribute with free text for its value. -/
def free (key value : String) : Attribute := ⟨key, Text.attributeValue value⟩

/-- An attribute within a tag, behind a space. -/
def text (item : Attribute) : String := " " ++ item.key ++ "=\"" ++ item.value ++ "\""

end Attribute

/-- The name and the attributes of an element. -/
structure Tag where
  name : String
  attributes : List Attribute
deriving DecidableEq, Repr

/-- What stands between the brackets of a tag. -/
def Tag.text (tag : Tag) : String := tag.name ++ String.join (tag.attributes.map Attribute.text)

/-- A piece of markup. -/
inductive Markup
  | declaration
  | opening (tag : Tag)
  | closing (name : String)
  /-- An element without content. -/
  | single (tag : Tag)
deriving DecidableEq, Repr

/-- The texts that are written for a piece of markup, one after the other. -/
def Markup.pieces : Markup → List String
  | declaration => ["<?", "xml version=\"1.0\" encoding=\"utf-8\"", "?>"]
  | opening tag => ["<", tag.text, ">"]
  | closing name => ["</", name, ">"]
  | single tag => ["<", tag.text, "/>"]

end DebugSymbols.Xml
