import DocFilter.Value.Display

/-!
Containers and what they hold, as a graph.

Collections may be shared and may hold themselves, so a scan for unsafe keys runs over a graph whose
nodes are containers. An edge leads to a container that an item or an entry holds; scalars have no
node, and neither keys nor texts are looked into. A key is refused if it starts with the reserved
sign, and also if it cannot be shown.

A scan visits each container at most once, and knows containers again by their places in memory. The
containers of a value are there as long as the value, each in a place of its own. But a mapping may
as well make what it holds when it is asked for it, and something else may come into the place of
what was made once that is gone. So the places are given apart from the graph.
-/

namespace DocFilter

/-- A container: the items of a collection, or the keys of a mapping as they are shown, with what
they lead to. -/
inductive Container
  | items (held : List (Option Nat))
  | entries (held : List (Except Failure String × Option Nat))

namespace Container

def keys : Container → List (Except Failure String)
  | .items _ => []
  | .entries held => held.map (·.1)

def children : Container → List Nat
  | .items held => held.filterMap id
  | .entries held => held.filterMap (·.2)

end Container

/-- Containers named by their numbers. -/
abbrev ContainerGraph := Array Container

/-- The places of containers in memory. A place is named by the first container that was there. -/
structure Placement where
  place : Nat → Nat
  place_le : ∀ node, place node ≤ node

/-- Every container has a place of its own. -/
def Placement.lasting : Placement := ⟨id, fun _ => Nat.le_refl _⟩

/-- The sign at the front of keys that are reserved for operators. -/
def reservedSign : Char := '$'

def isReservedKey (key : String) : Bool := key.toList.head? = some reservedSign

/-- Why a key is refused, if it is: it is reserved or cannot be shown. -/
def refusedKey? : Except Failure String → Option Failure
  | .ok key => if isReservedKey key then some (.reservedKey key) else none
  | .error failure => some failure

/-- The refusal of the first key of a container that is refused. -/
def Container.refusal? (c : Container) : Option Failure := c.keys.findSome? refusedKey?

namespace ContainerGraph

/-- Visits the containers on the stack and all they lead to, and returns the first refusal. A unit
of fuel is spent for each place that is marked, so there has to be as much as there are places. -/
def scan (graph : ContainerGraph) (places : Placement) (fuel : Nat) (seen : Array Bool)
    (stack : List Nat) : Option Failure :=
  match stack with
  | [] => none
  | node :: rest =>
    if seen.getD (places.place node) true then scan graph places fuel seen rest
    else
      match graph[node]?, fuel with
      | none, fuel => scan graph places fuel seen rest
      | some _, 0 => none
      | some container, fuel + 1 =>
        match container.refusal? with
        | some failure => some failure
        | none => scan graph places fuel (seen.setIfInBounds (places.place node) true)
            (container.children.reverse ++ rest)
termination_by (fuel, stack.length)
decreasing_by
  · exact Prod.Lex.right _ (Nat.lt_succ_self _)
  · exact Prod.Lex.right _ (Nat.lt_succ_self _)
  · exact Prod.Lex.left _ _ (Nat.lt_succ_self _)

/-- The first refusal that is met on the way from a container. -/
def refusalFrom? (graph : ContainerGraph) (places : Placement) (node : Nat) : Option Failure :=
  scan graph places graph.size (Array.replicate graph.size false) [node]

end ContainerGraph

namespace Value

mutual

/-- Adds the containers of a value to a graph, each behind those it holds, and returns the number of
the value if it is one. -/
def addTo (graph : ContainerGraph) : Value → ContainerGraph × Option Nat
  | list items =>
    let (graph, held) := addItemsTo graph items
    let node := graph.size
    (graph.push (.items held), some node)
  | ring items =>
    let (graph, held) := addItemsTo graph items
    let node := graph.size
    (graph.push (.items (held ++ [some node])), some node)
  | tuple items =>
    let (graph, held) := addItemsTo graph items
    let node := graph.size
    (graph.push (.items held), some node)
  | set items =>
    let (graph, held) := addItemsTo graph items
    let node := graph.size
    (graph.push (.items held), some node)
  | frozenSet items =>
    let (graph, held) := addItemsTo graph items
    let node := graph.size
    (graph.push (.items held), some node)
  | map entries =>
    let (graph, held) := addEntriesTo graph entries
    let node := graph.size
    (graph.push (.entries held), some node)
  | _ => (graph, none)

def addItemsTo (graph : ContainerGraph) : List Value → ContainerGraph × List (Option Nat)
  | [] => (graph, [])
  | v :: rest =>
    let (graph, node) := addTo graph v
    let (graph, nodes) := addItemsTo graph rest
    (graph, node :: nodes)

/-- Adds the containers that some entries hold; keys are not looked into. -/
def addEntriesTo (graph : ContainerGraph) :
    List (Value × Value) → ContainerGraph × List (Except Failure String × Option Nat)
  | [] => (graph, [])
  | (k, v) :: rest =>
    let (graph, node) := addTo graph v
    let (graph, nodes) := addEntriesTo graph rest
    (graph, (k.shown, node) :: nodes)

end

def refusal? (v : Value) : Option Failure :=
  match v.addTo #[] with
  | (graph, some node) => graph.refusalFrom? .lasting node
  | (_, none) => none

end Value

end DocFilter
