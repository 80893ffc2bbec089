import DocFilter.Proofs.Value.Reserved
import Mathlib.Algebra.Order.BigOperators.Group.Finset

/-!
The scan for reserved keys, turn by turn.

A walk keeps a stack of what is still to be looked at and marks the places of the containers that it
has seen. A turn takes one thing off the stack: a scalar or a container in a marked place is passed
over, any other container gets its place marked and leaves what it holds on the stack, unless one of
its own keys is refused. Nothing bounds the number of turns from the outside. That a walk ends, also
where containers are shared or hold themselves, is due to its potential, the length of the stack and
of all that the containers without a mark hold: every turn lowers it (`potential_of_turn`).

A turn does not change what the scan of a walk answers (`answer_of_turn`), so the walk ends with the
answer of the scan (`exists_run_eq_done`). On its stack there is never anything but what the root
leads to (`pending_of_turn`), so a key that is found is the key of such a container; and if none is
found and all of them have places of their own, they lie among clean containers. Together: a walk
from any root in any graph ends, and for a value it ends with a refusal exactly if a mapping in it
has a refused key (`walk_decides_reserved`). It can pass over a container in the place of one that
is gone (`walk_misses_reused_place`).
-/

namespace DocFilter

/-- What a container holds in order, scalars among it. -/
def Container.held : Container → List (Option Nat)
  | .items held => held
  | .entries held => held.map (·.2)

theorem Container.filterMap_held (c : Container) : c.held.filterMap id = c.children := by
  cases c with
  | items held => rfl
  | entries held => exact List.filterMap_map

/-- A walk on its way: the marks, and what is still to be looked at, the next thing first. -/
structure Walk where
  seen : Array Bool
  pending : List (Option Nat)

/-- What a turn comes to: the walk goes on, or ends with the key that it has found, if any. -/
inductive Turn
  | next (walk : Walk)
  | done (found : Option Failure)

namespace ContainerGraph

variable {graph : ContainerGraph} {places : Placement}

/-- One turn of a walk. -/
def turn (graph : ContainerGraph) (places : Placement) (w : Walk) : Turn :=
  match w.pending with
  | [] => .done none
  | none :: rest => .next { w with pending := rest }
  | some node :: rest =>
    if w.seen.getD (places.place node) true then .next { w with pending := rest }
    else
      match graph[node]? with
      | none => .next { w with pending := rest }
      | some container =>
        match container.refusal? with
        | some failure => .done (some failure)
        | none =>
          .next ⟨w.seen.setIfInBounds (places.place node) true, container.held.reverse ++ rest⟩

def run (graph : ContainerGraph) (places : Placement) : Nat → Walk → Turn
  | 0, w => .next w
  | turns + 1, w =>
    match graph.turn places w with
    | .next w => graph.run places turns w
    | .done found => .done found

def start (graph : ContainerGraph) (root : Option Nat) : Walk :=
  ⟨Array.replicate graph.size false, [root]⟩

def heldCount (graph : ContainerGraph) (node : Nat) : Nat :=
  (graph[node]?.map fun container => container.held.length).getD 0

def unseen (graph : ContainerGraph) (places : Placement) (seen : Array Bool) : Finset Nat :=
  (Finset.range graph.size).filter fun node => seen.getD (places.place node) true = false

/-- What a walk can still come across. -/
def potential (graph : ContainerGraph) (places : Placement) (w : Walk) : Nat :=
  w.pending.length + ∑ node ∈ graph.unseen places w.seen, graph.heldCount node

/-- The containers that a root leads to, itself included. -/
inductive Reaches (graph : ContainerGraph) (root : Option Nat) : Nat → Prop
  | root {node : Nat} (h : root = some node) : Reaches graph root node
  | held {node child : Nat} {container : Container} (h : Reaches graph root node)
      (hnode : graph[node]? = some container) (hchild : some child ∈ container.held) :
      Reaches graph root child

/-- What the scan answers for the rest of a walk. -/
def answer (graph : ContainerGraph) (places : Placement) (w : Walk) : Option Failure :=
  scan graph places (w.seen.count false) w.seen (w.pending.filterMap id)

/-! ### One turn -/

/-- All that a turn can do: end because nothing is left, pass over a thing, end at a container with
a refused key, or mark the place of a container and go on with what it holds. -/
theorem turn_cases (graph : ContainerGraph) (places : Placement) (w : Walk) :
    (w.pending = [] ∧ graph.turn places w = .done none) ∨
    (∃ item rest, w.pending = item :: rest ∧
      (∀ node, item = some node →
        w.seen.getD (places.place node) true = true ∨ graph[node]? = none) ∧
      graph.turn places w = .next { w with pending := rest }) ∨
    ∃ node rest container, w.pending = some node :: rest ∧
      w.seen[places.place node]? = some false ∧ graph[node]? = some container ∧
      ((∃ failure, container.refusal? = some failure ∧
          graph.turn places w = .done (some failure)) ∨
        container.refusal? = none ∧ graph.turn places w =
          .next ⟨w.seen.setIfInBounds (places.place node) true, container.held.reverse ++ rest⟩) := by
  obtain ⟨seen, pending⟩ := w
  match pending with
  | [] => exact .inl ⟨rfl, rfl⟩
  | none :: rest => exact .inr (.inl ⟨none, rest, rfl, nofun, rfl⟩)
  | some node :: rest =>
      by_cases hmarked : seen.getD (places.place node) true = true
      · refine .inr (.inl ⟨some node, rest, rfl, fun _ h => ?_, by simp [turn, hmarked]⟩)
        cases h
        exact .inl hmarked
      · cases hnode : graph[node]? with
        | none =>
            refine .inr (.inl ⟨some node, rest, rfl, fun _ h => ?_, by simp [turn, hmarked, hnode]⟩)
            cases h
            exact .inr hnode
        | some container =>
            refine .inr (.inr ⟨node, rest, container, rfl, getElem?_of_getD hmarked, hnode, ?_⟩)
            cases hkeys : container.refusal? with
            | some failure => exact .inl ⟨failure, rfl, by simp [turn, hmarked, hnode, hkeys]⟩
            | none => exact .inr ⟨rfl, by simp [turn, hmarked, hnode, hkeys]⟩

/-- A mark takes the node away whose place is marked, and no node comes in for it. -/
theorem unseen_mark {seen : Array Bool} {node : Nat} {container : Container}
    (h : seen[places.place node]? = some false) (hnode : graph[node]? = some container) :
    node ∈ graph.unseen places seen ∧
      graph.unseen places (seen.setIfInBounds (places.place node) true) ⊆
        (graph.unseen places seen).erase node := by
  have hbound := (Array.getElem?_eq_some_iff.mp hnode).1
  refine ⟨by simp [unseen, hbound, Array.getD_eq_getD_getElem?, h], fun other hother => ?_⟩
  obtain ⟨hrange, hunmarked⟩ := Finset.mem_filter.mp hother
  have hunmarked := mt (getD_mark_iff h).mpr (Bool.eq_false_iff.mp hunmarked)
  rw [not_or] at hunmarked
  refine Finset.mem_erase.mpr ⟨?_, Finset.mem_filter.mpr ⟨hrange, ?_⟩⟩
  · rintro rfl
    exact hunmarked.1 rfl
  · exact Bool.eq_false_iff.mpr hunmarked.2

/-- Every turn that does not end the walk lowers its potential. -/
theorem potential_of_turn {w w' : Walk} (h : graph.turn places w = .next w') :
    graph.potential places w' < graph.potential places w := by
  obtain ⟨-, hturn⟩ | ⟨item, rest, hpending, -, hturn⟩ |
    ⟨node, rest, container, hpending, hnew, hnode, ⟨failure, -, hturn⟩ | ⟨-, hturn⟩⟩ :=
    graph.turn_cases places w
  · cases hturn.symm.trans h
  · cases hturn.symm.trans h
    simp only [potential, hpending, List.length_cons]
    omega
  · cases hturn.symm.trans h
  · -- The container leaves the sum, and what it holds comes onto the stack.
    cases hturn.symm.trans h
    obtain ⟨hmem, hsubset⟩ := unseen_mark hnew hnode
    have hsum := Finset.add_sum_erase (graph.unseen places w.seen) graph.heldCount hmem
    have hle := Finset.sum_le_sum_of_subset (f := graph.heldCount) hsubset
    have hcount : graph.heldCount node = container.held.length := by simp [heldCount, hnode]
    simp only [potential, hpending, List.length_append, List.length_reverse, List.length_cons]
    omega

/-! ### The scan as a walk -/

theorem scan_nil (graph : ContainerGraph) (places : Placement) (fuel : Nat) (seen : Array Bool) :
    graph.scan places fuel seen [] = none := by
  rw [scan]

theorem scan_passed {fuel : Nat} {seen : Array Bool} {node : Nat} {rest : List Nat}
    (h : seen.getD (places.place node) true = true ∨ graph[node]? = none) :
    graph.scan places fuel seen (node :: rest) = graph.scan places fuel seen rest := by
  rw [scan.eq_def]
  by_cases hmarked : seen.getD (places.place node) true = true
  · exact if_pos hmarked
  · simp only [if_neg hmarked, h.resolve_left hmarked]

theorem scan_new {fuel : Nat} {seen : Array Bool} {node : Nat} {rest : List Nat}
    {container : Container} (h : seen[places.place node]? = some false)
    (hnode : graph[node]? = some container) :
    graph.scan places (fuel + 1) seen (node :: rest) = container.refusal?.or
      (graph.scan places fuel (seen.setIfInBounds (places.place node) true)
        (container.children.reverse ++ rest)) := by
  have hnew : ¬seen.getD (places.place node) true = true := by simp [Array.getD_eq_getD_getElem?, h]
  rw [scan.eq_def]
  simp only [if_neg hnew, hnode]
  cases container.refusal? <;> rfl

theorem filterMap_pending (container : Container) (rest : List (Option Nat)) :
    (container.held.reverse ++ rest).filterMap id =
      container.children.reverse ++ rest.filterMap id := by
  rw [List.filterMap_append, List.filterMap_reverse, container.filterMap_held]

/-- A turn leaves the answer of the scan as it is, and a walk that ends has found this answer. -/
theorem answer_of_turn (graph : ContainerGraph) (places : Placement) (w : Walk) :
    (∃ w', graph.turn places w = .next w' ∧ graph.answer places w' = graph.answer places w) ∨
      graph.turn places w = .done (graph.answer places w) := by
  obtain ⟨hpending, hturn⟩ | ⟨item, rest, hpending, hpassed, hturn⟩ |
    ⟨node, rest, container, hpending, hnew, hnode, hfound⟩ := graph.turn_cases places w
  · refine .inr (hturn.trans ?_)
    rw [answer, hpending, List.filterMap_nil, scan_nil]
  · refine .inl ⟨_, hturn, ?_⟩
    cases item with
    | none => rw [answer, answer, hpending, List.filterMap_cons_none rfl]
    | some node =>
        rw [answer, answer, hpending, List.filterMap_cons_some (f := id) rfl,
          scan_passed (hpassed node rfl)]
  · have hanswer : graph.answer places w = container.refusal?.or (graph.answer places
        ⟨w.seen.setIfInBounds (places.place node) true, container.held.reverse ++ rest⟩) := by
      simp only [answer, filterMap_pending]
      rw [hpending, List.filterMap_cons_some (f := id) rfl, ← count_mark hnew, scan_new hnew hnode]
    obtain ⟨failure, hrefused, hturn⟩ | ⟨hpassed, hturn⟩ := hfound
    · exact .inr (by rw [hturn, hanswer, hrefused, Option.some_or])
    · exact .inl ⟨_, hturn, by rw [hanswer, hpassed, Option.none_or]⟩

/-- A walk ends, after no more turns than its potential allows, with the answer of the scan. -/
theorem exists_run_eq_done (graph : ContainerGraph) (places : Placement) (w : Walk) :
    ∃ turns ≤ graph.potential places w + 1,
      graph.run places turns w = .done (graph.answer places w) := by
  -- By induction on a bound of the potential, which a turn lowers unless it is the last one.
  suffices h : ∀ bound w, graph.potential places w ≤ bound → ∃ turns ≤ graph.potential places w + 1,
      graph.run places turns w = .done (graph.answer places w) from h _ w le_rfl
  intro bound
  induction bound with
  | zero =>
      intro w hbound
      obtain ⟨w', hturn, -⟩ | hturn := graph.answer_of_turn places w
      · have hlower := potential_of_turn hturn
        omega
      · exact ⟨1, by omega, by simp only [run, hturn]⟩
  | succ bound ih =>
      intro w hbound
      obtain ⟨w', hturn, hanswer⟩ | hturn := graph.answer_of_turn places w
      · have hlower := potential_of_turn hturn
        obtain ⟨turns, hturns, hrun⟩ := ih w' (by omega)
        exact ⟨turns + 1, by omega, by simp only [run, hturn, hrun, hanswer]⟩
      · exact ⟨1, by omega, by simp only [run, hturn]⟩

theorem answer_start (graph : ContainerGraph) (places : Placement) (root : Option Nat) :
    graph.answer places (graph.start root) = root.bind (graph.refusalFrom? places) := by
  cases root with
  | none => exact scan_nil ..
  | some node =>
      have hcount : (Array.replicate graph.size false).count false = graph.size := by
        rw [← Array.count_toList, Array.toList_replicate, List.count_replicate_self]
      simp only [answer, start, hcount]
      rfl

/-! ### What a walk comes across -/

variable {root : Option Nat}

/-- What a turn leaves on the stack, the root leads to if it leads to what was there before. -/
theorem pending_of_turn {w w' : Walk} (h : graph.turn places w = .next w')
    (hpending : ∀ node, some node ∈ w.pending → graph.Reaches root node) :
    ∀ node, some node ∈ w'.pending → graph.Reaches root node := by
  obtain ⟨-, hturn⟩ | ⟨item, rest, hstack, -, hturn⟩ |
    ⟨node, rest, container, hstack, -, hnode, ⟨failure, -, hturn⟩ | ⟨-, hturn⟩⟩ :=
    graph.turn_cases places w
  · cases hturn.symm.trans h
  · cases hturn.symm.trans h
    exact fun node hmem => hpending node (hstack ▸ List.mem_cons_of_mem _ hmem)
  · cases hturn.symm.trans h
  · cases hturn.symm.trans h
    intro other hother
    obtain hheld | hrest := List.mem_append.mp hother
    · exact (hpending node (hstack ▸ List.mem_cons_self)).held hnode (List.mem_reverse.mp hheld)
    · exact hpending other (hstack ▸ List.mem_cons_of_mem _ hrest)

/-- A walk reports no refusals but those of keys of containers that the root leads to. -/
theorem reaches_of_run {turns : Nat} {w : Walk} {failure : Failure}
    (hpending : ∀ node, some node ∈ w.pending → graph.Reaches root node)
    (h : graph.run places turns w = .done (some failure)) :
    ∃ node container, graph.Reaches root node ∧ graph[node]? = some container ∧
      ∃ key ∈ container.keys, refusedKey? key = some failure := by
  induction turns generalizing w with
  | zero => cases h
  | succ turns ih =>
      cases hturn : graph.turn places w with
      | next w' =>
          simp only [run, hturn] at h
          exact ih (pending_of_turn hturn hpending) h
      | done found =>
          simp only [run, hturn] at h
          cases h
          obtain ⟨-, hdone⟩ | ⟨item, rest, -, -, hdone⟩ |
            ⟨node, rest, container, hstack, -, hnode, ⟨found, hrefused, hdone⟩ | ⟨-, hdone⟩⟩ :=
            graph.turn_cases places w
          · cases hdone.symm.trans hturn
          · cases hdone.symm.trans hturn
          · cases hdone.symm.trans hturn
            exact ⟨node, container, hpending node (hstack ▸ List.mem_cons_self), hnode,
              List.exists_of_findSome?_eq_some hrefused⟩
          · cases hdone.symm.trans hturn

theorem not_reaches_none (node : Nat) : ¬graph.Reaches none node := by
  intro h
  induction h with
  | root h => cases h
  | held _ _ _ ih => exact ih

theorem reaches_of_refusalFrom? {failure : Failure}
    (h : root.bind (graph.refusalFrom? places) = some failure) :
    ∃ node container, graph.Reaches root node ∧ graph[node]? = some container ∧
      ∃ key ∈ container.keys, refusedKey? key = some failure := by
  obtain ⟨turns, -, hrun⟩ := graph.exists_run_eq_done places (graph.start root)
  rw [answer_start, h] at hrun
  exact reaches_of_run (fun node hmem => .root (List.mem_singleton.mp hmem).symm) hrun

/-- If nothing is found, and all that the root leads to has places of its own, no key is refused
there. -/
theorem refusedKey?_of_reaches {node : Nat} {container : Container}
    (hdistinct : ∀ a b, graph.Reaches root a → graph.Reaches root b →
      places.place a = places.place b → a = b)
    (hnone : root.bind (graph.refusalFrom? places) = none) (h : graph.Reaches root node)
    (hcontainer : graph[node]? = some container) :
    ∀ key ∈ container.keys, refusedKey? key = none := by
  have hchild {held : Nat} {holder : Container} (hheld : held ∈ holder.children) :
      some held ∈ holder.held := by
    rw [← Container.filterMap_held] at hheld
    simpa using hheld
  have hplaces : places.Separates graph (graph.Reaches root) :=
    ⟨fun _ _ hnode hfound _ hheld => hnode.held hfound (hchild hheld), hdistinct⟩
  cases root with
  | none => exact (not_reaches_none node h).elim
  | some start =>
      obtain ⟨nodes, hclean, hstart⟩ := exists_clean_of_refusalFrom? hplaces (.root rfl) hnone
      have hreached : nodes node := by
        clear hcontainer
        induction h with
        | root h =>
            cases h
            exact hstart
        | held _ hfound hmem ih =>
            refine (hclean _ _ ih hfound).2 _ ?_
            rw [← Container.filterMap_held]
            exact List.mem_filterMap.mpr ⟨_, hmem, rfl⟩
      exact (hclean _ _ hreached hcontainer).1

end ContainerGraph

open ContainerGraph in
/-- The walk from any root of any graph ends, whether containers are shared or hold themselves. It
reports nothing but refusals of keys that the root leads to, and one of them for certain if all
containers have places of their own. The containers of a value have: an operand passes exactly if
all keys of mappings in it can be shown and are not reserved, and is refused otherwise for one that
is reserved, as an unusable value, or for one that cannot be shown. Neither keys nor anything but
collections and mappings are looked into. -/
theorem walk_decides_reserved (graph : ContainerGraph) (places : Placement) (root : Option Nat)
    (v : Value) :
    let found := root.bind (graph.refusalFrom? places)
    ((∃ turns ≤ graph.potential places (graph.start root) + 1,
        graph.run places turns (graph.start root) = .done found) ∧
      (∀ failure, found = some failure → ∃ node container, graph.Reaches root node ∧
        graph[node]? = some container ∧ ∃ key ∈ container.keys, refusedKey? key = some failure) ∧
      ((∀ a b, graph.Reaches root a → graph.Reaches root b →
          places.place a = places.place b → a = b) →
        found = none → ∀ node container, graph.Reaches root node →
          graph[node]? = some container → ∀ key ∈ container.keys, refusedKey? key = none)) ∧
    v.refusal? = (v.addTo #[]).2.bind ((v.addTo #[]).1.refusalFrom? .lasting) ∧
    (checkOperand v = .ok () ↔
      ∀ key, v.HasKey key → ∃ text, key = .ok text ∧ isReservedKey text = false) ∧
    (∀ failure, checkOperand v = .error failure →
      (∃ text, v.HasKey (.ok text) ∧ isReservedKey text = true ∧ failure = .reservedKey text) ∨
        v.HasKey (.error failure)) ∧
    ((∀ failure, ¬v.HasKey (.error failure)) →
      ((∃ failure, checkOperand v = .error failure ∧ failure.kind = .validation) ↔
        ∃ text, v.HasKey (.ok text) ∧ isReservedKey text = true)) := by
  have hpassed : checkOperand v = .ok () ↔
      ∀ key, v.HasKey key → ∃ text, key = .ok text ∧ isReservedKey text = false := by
    have hkey (key : Except Failure String) :
        refusedKey? key = none ↔ ∃ text, key = .ok text ∧ isReservedKey text = false := by
      cases key <;> simp [refusedKey?]
    simp only [checkOperand_eq_ok_iff, Value.ReservedFree, Value.HasKey, hkey]
    constructor
    · rintro h key ⟨entries, hwithin, entry, hentry, rfl⟩
      exact h entries hwithin entry hentry
    · exact fun h entries hwithin entry hentry => h _ ⟨entries, hwithin, entry, hentry, rfl⟩
  refine ⟨⟨?_, fun _ => reaches_of_refusalFrom?, ?_⟩, ?_, hpassed,
    fun _ => hasKey_of_checkOperand, fun hshown => ⟨?_, ?_⟩⟩
  · rw [← answer_start]
    exact graph.exists_run_eq_done places _
  · exact fun hdistinct hnone _ _ => refusedKey?_of_reaches hdistinct hnone
  · unfold Value.refusal?
    cases hadd : v.addTo #[] with
    | mk graph root => cases root <;> rfl
  · rintro ⟨failure, hcheck, -⟩
    obtain ⟨text, hkey, hreserved, -⟩ | hkey := hasKey_of_checkOperand hcheck
    · exact ⟨text, hkey, hreserved⟩
    · exact (hshown failure hkey).elim
  · rintro ⟨text, hkey, hreserved⟩
    cases hcheck : checkOperand v with
    | ok =>
        obtain ⟨_, htext, hfree⟩ := hpassed.mp hcheck _ hkey
        cases htext
        cases hreserved.symm.trans hfree
    | error failure =>
        obtain ⟨found, -, -, rfl⟩ | herror := hasKey_of_checkOperand hcheck
        · exact ⟨_, rfl, rfl⟩
        · exact (hshown failure herror).elim

/-- The containers of two nodes are in one place, one after the other. -/
def Placement.reused (earlier later : Nat) (h : earlier ≤ later) : Placement where
  place node := if node = later then earlier else node
  place_le node := by
    split
    · omega
    · exact Nat.le_refl node

/-- Two mappings make what they hold when they are asked for it, and what the first one makes comes
into the place where that of the second one had been: the walk passes over it and misses a reserved
key. Also, a key that cannot be shown keeps an operand with a reserved key from being refused as an
unusable value. -/
theorem walk_misses_reused_place :
    (let graph : ContainerGraph := #[.items [some 1, some 2], .entries [(.ok "x", some 5)],
        .entries [(.ok "z", some 3)], .entries [(.ok "w", some 4)], .entries [(.ok "ok", none)],
        .entries [(.ok "y", some 6)], .entries [(.ok "$where", none)]]
      let places := Placement.reused 3 5 (by decide)
      graph.run places 11 (graph.start (some 0)) = .done none ∧
        graph.Reaches (some 0) 6 ∧ graph[6]? = some (.entries [(.ok "$where", none)])) ∧
    let v : Value := .list [.map [(.text "$x", .int 1)], .map [(.int Value.digitBound, .int 1)]]
    checkOperand v = .error .integerTooLong ∧ Failure.kind .integerTooLong ≠ .validation ∧
      v.HasKey (.ok "$x") ∧ isReservedKey "$x" = true := by
  refine ⟨⟨rfl, ?_, rfl⟩, ?_, by decide, ?_, by decide⟩
  · exact .held (.held (.held (.root rfl) (show _ = some (.items _) from rfl) List.mem_cons_self)
      (show _ = some (.entries _) from rfl) List.mem_cons_self)
      (show _ = some (.entries _) from rfl) List.mem_cons_self
  · have hadd : (Value.list [.map [(.text "$x", .int 1)],
          .map [(.int Value.digitBound, .int 1)]]).addTo #[] =
        (#[.entries [(.ok "$x", none)], .entries [((Value.int Value.digitBound).shown, none)],
          .items [some 0, some 1]], some 2) := rfl
    have hshown : (Value.int Value.digitBound).shown = .error .integerTooLong := by
      rw [Value.shown_int, Value.isShort_digitBound]
      rfl
    -- The last mapping comes off the stack first.
    have hscan : ContainerGraph.scan #[.entries [(.ok "$x", none)],
        .entries [(.error .integerTooLong, none)], .items [some 0, some 1]] .lasting (2 + 1)
          #[false, false, false] [2] = some .integerTooLong := by
      rw [ContainerGraph.scan_new rfl rfl]
      exact (congrArg _ (ContainerGraph.scan_new rfl rfl)).trans rfl
    refine checkOperand_of_refusal? ?_
    rw [Value.refusal?, hadd, hshown]
    exact hscan
  · exact ⟨[(.text "$x", .int 1)], .of_mem (List.mem_cons_self) (.refl _), _, List.mem_cons_self, rfl⟩

end DocFilter
