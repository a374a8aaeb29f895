import SecOpent.Python.Text

/-!
# XML elements

`xml.etree.ElementTree`, on elements with their attributes: the text between the elements is left out.

## Main definitions

* `Element`: an element with its attributes and its children
* `Element.iter`: the element itself and what is in it, in the order of the document
* `Element.find`, `Element.findall`, `Element.get`
-/

namespace Python

/-- `Element`, without its text. -/
inductive Element
  | node (tag : String) (attrib : List (String × String)) (children : List Element)

namespace Element

/-- `tag`. -/
def tag : Element → String
  | node tag _ _ => tag

/-- The children of the element. -/
def children : Element → List Element
  | node _ _ children => children

/-- `get`, of an attribute. -/
def get (key : String) : Element → Option String
  | node _ attrib _ => attrib.lookup key

mutual

/-- `iter(name)`: the elements with the tag, an element before those in it. -/
def iter (name : String) : Element → List Element
  | node tag attrib children =>
    (if tag = name then [node tag attrib children] else []) ++ iterAll name children

/-- The elements with the tag in a list of elements. -/
def iterAll (name : String) : List Element → List Element
  | [] => []
  | e :: es => iter name e ++ iterAll name es

end

/-- `findall(name)`: the children with the tag. -/
def findall (name : String) (e : Element) : List Element := e.children.filter (·.tag == name)

/-- `find(name)`: the first child with the tag. -/
def find (name : String) (e : Element) : Option Element := e.children.find? (·.tag == name)

end Element

end Python
