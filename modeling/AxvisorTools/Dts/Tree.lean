import AxvisorTools.Text.Basic

/-!
# Device trees

A node has properties, each a name and the bytes of its value, and child nodes. The events of a node
are what a reader of its text meets one after the other, and `build` puts a tree together from them.
-/

namespace Dts

/-- A property and the bytes of its value. -/
structure Property where
  name : Text
  value : Bytes
  deriving DecidableEq, Repr

inductive Node
  | mk (name : Text) (props : List Property) (children : List Node)

namespace Node

def name : Node → Text
  | mk name _ _ => name

def props : Node → List Property
  | mk _ props _ => props

def children : Node → List Node
  | mk _ _ children => children

end Node

/-! ## Names -/

/-- The characters of a property name. -/
def isPropertyChar (c : Char) : Bool := c.isAlphanum || c ∈ [',', '.', '_', '+', '*', '#', '?', '-']

/-- The characters of a node name: those of a property name, and the sign before the unit address. -/
def isNodeChar (c : Char) : Bool := isPropertyChar c || c == '@'

def isPropertyName (n : Text) : Bool := n ≠ [] ∧ n.all isPropertyChar

def isNodeName (n : Text) : Bool := n ≠ [] ∧ n.all isNodeChar

def rootName : Text := ['/']

def versionTag : Text := "/dts-v1/"

def reserveTag : Text := "/memreserve/"

/-- The names that the compiler accepts, in a node and below it. -/
inductive Node.Named : Node → Prop
  | mk {name : Text} {props : List Property} {children : List Node}
      (props_named : ∀ p ∈ props, isPropertyName p.name = true)
      (children_named : ∀ c ∈ children, isNodeName c.name = true)
      (below : ∀ c ∈ children, Named c) : Named (.mk name props children)

/-- No two properties of a node and no two children of one have the same name. -/
inductive Node.Distinct : Node → Prop
  | mk {name : Text} {props : List Property} {children : List Node}
      (props_nodup : (props.map Property.name).Nodup)
      (children_nodup : (children.map Node.name).Nodup)
      (below : ∀ c ∈ children, Distinct c) : Distinct (.mk name props children)

/-- A reserved range of memory, in 64 bits. -/
structure Reserve where
  address : Fin (2 ^ 64)
  size : Fin (2 ^ 64)
  deriving DecidableEq, Repr

/-- A tree as the compiler accepts it, with its list of reserved ranges. -/
structure Document where
  reserved : List Reserve
  root : Node
  root_name : root.name = rootName
  named : root.Named
  distinct : root.Distinct

/-! ## Events -/

inductive Event
  | opens (name : Text)
  | prop (p : Property)
  | closes
  deriving DecidableEq, Repr

mutual

/-- The events of a node. -/
def Node.events : Node → List Event
  | .mk name props children => .opens name :: (props.map .prop ++ (eventsOf children ++ [.closes]))

/-- The events of several nodes. -/
def eventsOf : List Node → List Event
  | [] => []
  | n :: ns => n.events ++ eventsOf ns

end

/-- A node whose end has not been read. -/
structure Partial where
  name : Text
  props : List Property
  children : List Node

def Partial.node (o : Partial) : Node := .mk o.name o.props o.children

/-- What stands below all open nodes: it collects the root. -/
def outside : Partial := ⟨[], [], []⟩

/-- One event. The properties of a node come before its children, and only the root has the name of
the root. -/
def build : List Partial → Event → Option (List Partial)
  | o :: os, .opens name =>
    if (if os = [] then name = rootName else isNodeName name = true) then
      some (⟨name, [], []⟩ :: o :: os)
    else none
  | o :: os, .prop p =>
    if os ≠ [] ∧ o.children = [] ∧ isPropertyName p.name = true then
      some ({ o with props := o.props ++ [p] } :: os)
    else none
  | o :: o' :: os, .closes => some ({ o' with children := o'.children ++ [o.node] } :: os)
  | _, _ => none

end Dts
