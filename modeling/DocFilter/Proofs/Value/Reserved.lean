import DocFilter.Filter.Guard
import Mathlib.Data.List.Basic

/-!
What a scan for reserved keys finds out.

The scan runs over a graph and marks places; what it is about is the value from which the graph was
made. The two are joined by *clean* sets of nodes: no key of the containers there is refused, and no
edge leads out. Where all that a scan comes across has places of its own (`Placement.Separates`), a
scan that finds nothing has marked a clean set around its start (`exists_clean_of_refusalFrom?`).
The containers of a value have such places, and a value whose node lies in a clean set holds no
mapping with a refused key, at any depth (`reservedFree_of_clean`). Together: what passes the scan
is free of them (`reservedFree_of_refusal?`). The other way round, all keys in the graph are keys of
mappings in the value, so what the scan reports is the refusal of one of them
(`hasKey_of_refusal?`), and the scan passes exactly what is free of refused keys
(`refusal?_eq_none_iff`).
-/

namespace DocFilter

/-! ### Values inside values -/

namespace Value

/-- The values that a collection or a mapping holds directly. Keys are not held. -/
def contents : Value → List Value
  | list items | tuple items | set items | frozenSet items => items
  | ring items => items ++ [ring items]
  | map entries => entries.map (·.2)
  | _ => []

/-- The first value is the second one or lies in it, at any depth. -/
inductive Within : Value → Value → Prop
  | refl (v : Value) : Within v v
  | of_mem {part held whole : Value} (hmem : held ∈ whole.contents) (h : Within part held) :
      Within part whole

/-- No mapping in the value, at any depth, has a key that is reserved or cannot be shown. -/
def ReservedFree (v : Value) : Prop :=
  ∀ entries, Within (map entries) v → ∀ entry ∈ entries, refusedKey? entry.1.shown = none

/-- It is enough to look at the own keys and at what is held. A ring holds itself, and does not have
to be looked at again for that. -/
theorem reservedFree_of_contents {v : Value}
    (hown : ∀ entries, v = map entries → ∀ entry ∈ entries, refusedKey? entry.1.shown = none)
    (hheld : ∀ held ∈ v.contents, held = v ∨ held.ReservedFree) : v.ReservedFree := by
  intro entries hwithin
  generalize hpart : map entries = part at hwithin
  induction hwithin with
  | refl => exact hown entries hpart.symm
  | of_mem hmem h ih =>
      obtain rfl | hfree := hheld _ hmem
      · exact ih hown hheld
      · exact hfree entries (hpart ▸ h)

theorem ReservedFree.held {v held : Value} (h : v.ReservedFree) (hmem : held ∈ v.contents) :
    held.ReservedFree :=
  fun entries hwithin => h entries (.of_mem hmem hwithin)

/-- A mapping in the value, at any depth, has a key that is shown in this way. -/
def HasKey (v : Value) (key : Except Failure String) : Prop :=
  ∃ entries, Within (map entries) v ∧ ∃ entry ∈ entries, entry.1.shown = key

theorem HasKey.of_held {v held : Value} {key : Except Failure String} (h : held.HasKey key)
    (hmem : held ∈ v.contents) : v.HasKey key := by
  obtain ⟨entries, hwithin, hentry⟩ := h
  exact ⟨entries, .of_mem hmem hwithin, hentry⟩

theorem ReservedFree.of_hasKey {v : Value} {key : Except Failure String} (h : v.ReservedFree)
    (hkey : v.HasKey key) : refusedKey? key = none := by
  obtain ⟨entries, hwithin, entry, hentry, rfl⟩ := hkey
  exact h entries hwithin entry hentry

end Value

/-! ### Scans -/

/-- No key of the container is refused, and it holds containers at the given nodes only. -/
def Container.IsClean (c : Container) (nodes : Nat → Prop) : Prop :=
  (∀ key ∈ c.keys, refusedKey? key = none) ∧ ∀ child ∈ c.children, nodes child

/-- No edge leads out of a set of nodes, and all its nodes have places of their own. -/
structure Placement.Separates (places : Placement) (graph : ContainerGraph)
    (nodes : Nat → Prop) : Prop where
  closed : ∀ node container, nodes node → graph[node]? = some container →
    ∀ child ∈ container.children, nodes child
  distinct : ∀ a b, nodes a → nodes b → places.place a = places.place b → a = b

theorem Placement.lasting_separates (graph : ContainerGraph) :
    lasting.Separates graph fun _ => True :=
  ⟨fun _ _ _ _ _ _ => trivial, fun _ _ _ _ h => h⟩

namespace ContainerGraph

variable {graph : ContainerGraph} {places : Placement} {reached : Nat → Prop}

/-- All containers at the given nodes are clean. -/
def Clean (graph : ContainerGraph) (nodes : Nat → Prop) : Prop :=
  ∀ node container, nodes node → graph[node]? = some container → container.IsClean nodes

theorem getElem?_of_getD {seen : Array Bool} {node : Nat} (h : ¬seen.getD node true = true) :
    seen[node]? = some false := by
  rw [Array.getD_eq_getD_getElem?] at h
  cases hmark : seen[node]? with
  | none => simp [hmark] at h
  | some mark => simpa [hmark] using h

theorem count_mark {seen : Array Bool} {node : Nat} (h : seen[node]? = some false) :
    (seen.setIfInBounds node true).count false + 1 = seen.count false := by
  obtain ⟨hbound, hmark⟩ := Array.getElem?_eq_some_iff.mp h
  have hpositive : 0 < seen.count false :=
    Array.count_pos_iff.mpr (hmark ▸ Array.getElem_mem hbound)
  rw [Array.setIfInBounds_def, dif_pos hbound, Array.count_set, hmark]
  show seen.count false - 1 + 0 + 1 = seen.count false
  omega

theorem getD_mark_iff {seen : Array Bool} {node other : Nat} (h : seen[node]? = some false) :
    (seen.setIfInBounds node true).getD other true = true ↔
      node = other ∨ seen.getD other true = true := by
  have hbound := (Array.getElem?_eq_some_iff.mp h).1
  rw [Array.getD_eq_getD_getElem?, Array.getD_eq_getD_getElem?, Array.getElem?_setIfInBounds]
  by_cases hother : node = other
  · simp [hother, hother ▸ hbound]
  · simp [hother]

/-- A scan that finds nothing, with fuel for every place that is not marked yet: its stack and the
nodes whose places are marked lie in a set where only the containers whose places were marked before
need not be clean. -/
theorem scan_eq_none {fuel : Nat} {seen : Array Bool} {stack : List Nat}
    (hplaces : places.Separates graph reached) (hreached : ∀ node ∈ stack, reached node)
    (hfuel : seen.count false ≤ fuel) (h : scan graph places fuel seen stack = none) :
    ∃ nodes : Nat → Prop, (∀ node, nodes node → reached node) ∧ (∀ node ∈ stack, nodes node) ∧
      (∀ node, reached node → seen.getD (places.place node) true = true → nodes node) ∧
      ∀ node container, nodes node → graph[node]? = some container →
        seen.getD (places.place node) true = true ∨ container.IsClean nodes := by
  fun_induction scan graph places fuel seen stack with
  | case1 fuel seen =>
      refine ⟨fun node => reached node ∧ seen.getD (places.place node) true = true,
        fun _ h => h.1, by simp, fun _ hnode hmarked => ⟨hnode, hmarked⟩, ?_⟩
      exact fun node container hnode _ => .inl hnode.2
  | case2 fuel seen node rest hmarked ih =>
      -- A node with a marked place is skipped; the rest of the scan puts it into its set anyway.
      obtain ⟨hnode, hrest⟩ := List.forall_mem_cons.mp hreached
      obtain ⟨nodes, hsubset, hstack, hseen, hclean⟩ := ih hrest hfuel h
      exact ⟨nodes, hsubset, List.forall_mem_cons.mpr ⟨hseen node hnode hmarked, hstack⟩, hseen,
        hclean⟩
  | case3 seen node rest hnew fuel hnone ih =>
      -- Where there is no container, there is nothing to be clean.
      obtain ⟨hnode, hrest⟩ := List.forall_mem_cons.mp hreached
      obtain ⟨nodes, hsubset, hstack, hseen, hclean⟩ := ih hrest hfuel h
      refine ⟨fun other => nodes other ∨ other = node, ?_, ?_, ?_, ?_⟩
      · exact fun other hother => hother.elim (hsubset other) fun h => h ▸ hnode
      · exact List.forall_mem_cons.mpr ⟨.inr rfl, fun other hother => .inl (hstack other hother)⟩
      · exact fun other hother hmarked => .inl (hseen other hother hmarked)
      · rintro other container (hother | rfl) hcontainer
        · refine (hclean other container hother hcontainer).imp_right fun hdone => ?_
          exact ⟨hdone.1, fun child hchild => .inl (hdone.2 child hchild)⟩
        · cases hnone.symm.trans hcontainer
  | case4 seen node rest hnew container hcontainer =>
      -- There is a place left to mark, so there is fuel.
      have hmark := count_mark (getElem?_of_getD hnew)
      omega
  | case5 => cases h
  | case6 seen node rest hnew container fuel hcontainer hkeys ih =>
      -- One mark more takes one fuel, and the children go onto the stack of the rest.
      obtain ⟨hnode, hrest⟩ := List.forall_mem_cons.mp hreached
      have hunmarked := getElem?_of_getD hnew
      have hmark := count_mark hunmarked
      have hleft : (seen.setIfInBounds (places.place node) true).count false ≤ fuel := by omega
      have hnext : ∀ child ∈ container.children.reverse ++ rest, reached child := by
        refine List.forall_mem_append.mpr ⟨fun child hchild => ?_, hrest⟩
        exact hplaces.closed node container hnode hcontainer child (List.mem_reverse.mp hchild)
      obtain ⟨nodes, hsubset, hstack, hseen, hclean⟩ := ih hnext hleft h
      obtain ⟨hchildren, hstack⟩ := List.forall_mem_append.mp hstack
      have hown : nodes node := hseen node hnode ((getD_mark_iff hunmarked).mpr (.inl rfl))
      refine ⟨nodes, hsubset, List.forall_mem_cons.mpr ⟨hown, hstack⟩, fun other hother hbefore => ?_, ?_⟩
      · exact hseen other hother ((getD_mark_iff hunmarked).mpr (.inr hbefore))
      · intro other found hother hfound
        obtain hmarked | hdone := hclean other found hother hfound
        · obtain hplace | hbefore := (getD_mark_iff hunmarked).mp hmarked
          · -- The place was marked in this step, so it is that of the container.
            obtain rfl := hplaces.distinct node other hnode (hsubset other hother) hplace
            obtain rfl : container = found := Option.some.inj (hcontainer.symm.trans hfound)
            refine .inr ⟨List.findSome?_eq_none_iff.mp hkeys, fun child hchild => ?_⟩
            exact hchildren child (List.mem_reverse.mpr hchild)
          · exact .inl hbefore
        · exact .inr hdone

theorem exists_clean_of_refusalFrom? {node : Nat} (hplaces : places.Separates graph reached)
    (hnode : reached node) (h : graph.refusalFrom? places node = none) :
    ∃ nodes, graph.Clean nodes ∧ nodes node := by
  have hfuel : (Array.replicate graph.size false).count false ≤ graph.size := by
    rw [← Array.count_toList]
    simp [Array.toList_replicate]
  obtain ⟨nodes, -, hstack, -, hclean⟩ := scan_eq_none hplaces (by simpa using hnode) hfuel h
  refine ⟨nodes, fun other container hother hcontainer => ?_, hstack node (by simp)⟩
  refine (hclean other container hother hcontainer).resolve_left fun hmarked => ?_
  -- The place of a container is in the graph, and had no mark at the start.
  have hbound : other < graph.size := (Array.getElem?_eq_some_iff.mp hcontainer).1
  have hplace := places.place_le other
  have hplace : places.place other < graph.size := by omega
  simp [Array.getD_eq_getD_getElem?, hplace] at hmarked

/-- What a scan reports is the refusal of a key of some container of the graph. -/
theorem exists_of_scan_eq_some {fuel : Nat} {seen : Array Bool} {stack : List Nat}
    {failure : Failure} (h : scan graph places fuel seen stack = some failure) :
    ∃ (node : Nat) (container : Container), graph[node]? = some container ∧
      ∃ key ∈ container.keys, refusedKey? key = some failure := by
  fun_induction scan graph places fuel seen stack with
  | case1 => cases h
  | case2 fuel seen node rest hmarked ih => exact ih h
  | case3 seen node rest hnew fuel hnone ih => exact ih h
  | case4 => cases h
  | case5 seen node rest hnew container fuel hcontainer found hfound =>
      cases h
      exact ⟨node, container, hcontainer, List.exists_of_findSome?_eq_some hfound⟩
  | case6 seen node rest hnew container fuel hcontainer hkeys ih => exact ih h

/-! ### Graphs of values -/

/-- The first graph is a part of the second one, in the same places. -/
def Extends (graph large : ContainerGraph) : Prop :=
  ∀ (node : Nat) (container : Container),
    graph[node]? = some container → large[node]? = some container

theorem extends_push (graph : ContainerGraph) (container : Container) :
    graph.Extends (graph.push container) := by
  intro node found hfound
  have hbound := (Array.getElem?_eq_some_iff.mp hfound).1
  rw [Array.getElem?_push, if_neg (by omega), hfound]

theorem Extends.trans {small large : ContainerGraph} (h : small.Extends graph)
    (h' : graph.Extends large) : small.Extends large :=
  fun node container hnode => h' node container (h node container hnode)

theorem getElem?_push_eq_some {node : Nat} {container added : Container}
    (h : (graph.push added)[node]? = some container) :
    graph[node]? = some container ∨ container = added := by
  rw [Array.getElem?_push] at h
  split at h
  · exact .inr (Option.some.inj h).symm
  · exact .inl h

end ContainerGraph

namespace Value

open ContainerGraph

variable {large : ContainerGraph} {nodes : Nat → Prop}

mutual

theorem extends_addTo (graph : ContainerGraph) : (v : Value) → graph.Extends (v.addTo graph).1
  | list items | ring items | tuple items | set items | frozenSet items =>
      (extends_addItemsTo graph items).trans (extends_push _ _)
  | map entries => (extends_addEntriesTo graph entries).trans (extends_push _ _)
  | null | bool _ | int _ | real _ | text _ | bytes _ | objectId _ | timestamp _ | date _
  | operator _ | pattern _ | clause .. | paging .. | request .. => fun _ _ h => h

theorem extends_addItemsTo (graph : ContainerGraph) :
    (items : List Value) → graph.Extends (addItemsTo graph items).1
  | [] => fun _ _ h => h
  | v :: rest => (extends_addTo graph v).trans (extends_addItemsTo _ rest)

theorem extends_addEntriesTo (graph : ContainerGraph) :
    (entries : List (Value × Value)) → graph.Extends (addEntriesTo graph entries).1
  | [] => fun _ _ h => h
  | (_, v) :: rest => (extends_addTo graph v).trans (extends_addEntriesTo _ rest)

end

mutual

/-- The node of a value lies in a clean set: then no mapping in the value has a refused key. The
graph may have grown since the value was added to it. -/
theorem reservedFree_of_clean (hclean : large.Clean nodes) (graph : ContainerGraph) :
    (v : Value) → (v.addTo graph).1.Extends large → (∀ node ∈ (v.addTo graph).2, nodes node) →
      v.ReservedFree
  | list items, hgraph, hnode | tuple items, hgraph, hnode | set items, hgraph, hnode
  | frozenSet items, hgraph, hnode => by
      have hcontainer := hgraph _ _ Array.getElem?_push_size
      have hitems := itemsFree_of_clean hclean graph items ((extends_push _ _).trans hgraph)
        (hclean _ _ (hnode _ rfl) hcontainer).2
      exact reservedFree_of_contents (by simp) fun held hheld => .inr (hitems held hheld)
  | ring items, hgraph, hnode => by
      have hcontainer := hgraph _ _ Array.getElem?_push_size
      have hchildren := (hclean _ _ (hnode _ rfl) hcontainer).2
      have hitems := itemsFree_of_clean hclean graph items ((extends_push _ _).trans hgraph)
        fun child hchild => hchildren child (by
          show child ∈ ((addItemsTo graph items).2 ++ _).filterMap id
          rw [List.filterMap_append]
          exact List.mem_append_left _ hchild)
      refine reservedFree_of_contents (by simp) fun held hheld => ?_
      obtain hheld | hself := List.mem_append.mp hheld
      · exact .inr (hitems held hheld)
      · -- It also holds itself, which is no further value to look at.
        exact .inl (List.mem_singleton.mp hself)
  | map entries, hgraph, hnode => by
      have hcontainer := hgraph _ _ Array.getElem?_push_size
      obtain ⟨hkeys, hchildren⟩ := hclean _ _ (hnode _ rfl) hcontainer
      have hfree := entriesFree_of_clean hclean graph entries ((extends_push _ _).trans hgraph)
        hkeys hchildren
      refine reservedFree_of_contents ?_ ?_
      · intro own hown entry hentry
        cases hown
        exact (hfree entry hentry).1
      · intro held hheld
        obtain ⟨entry, hentry, rfl⟩ := List.mem_map.mp hheld
        exact .inr (hfree entry hentry).2
  | null, _, _ | bool _, _, _ | int _, _, _ | real _, _, _ | text _, _, _ | bytes _, _, _
  | objectId _, _, _ | timestamp _, _, _ | date _, _, _ | operator _, _, _ | pattern _, _, _
  | clause .., _, _ | paging .., _, _ | request .., _, _ =>
      reservedFree_of_contents (by simp) (by simp [contents])

theorem itemsFree_of_clean (hclean : large.Clean nodes) (graph : ContainerGraph) :
    (items : List Value) → (addItemsTo graph items).1.Extends large →
      (∀ child ∈ (addItemsTo graph items).2.filterMap id, nodes child) →
      ∀ v ∈ items, v.ReservedFree
  | [], _, _ => by simp
  | v :: rest, hgraph, hchildren => by
      have hrest : (addItemsTo (v.addTo graph).1 rest).1.Extends large := hgraph
      refine List.forall_mem_cons.mpr ⟨?_, ?_⟩
      · refine reservedFree_of_clean hclean graph v ((extends_addItemsTo _ rest).trans hrest) ?_
        intro node hnode
        refine hchildren node (List.mem_filterMap.mpr ⟨some node, ?_, rfl⟩)
        exact List.mem_cons.mpr (.inl hnode.symm)
      · refine itemsFree_of_clean hclean _ rest hrest fun child hchild => hchildren child ?_
        obtain ⟨node, hmem, hnode⟩ := List.mem_filterMap.mp hchild
        exact List.mem_filterMap.mpr ⟨node, List.mem_cons_of_mem _ hmem, hnode⟩

theorem entriesFree_of_clean (hclean : large.Clean nodes) (graph : ContainerGraph) :
    (entries : List (Value × Value)) → (addEntriesTo graph entries).1.Extends large →
      (∀ key ∈ (addEntriesTo graph entries).2.map (·.1), refusedKey? key = none) →
      (∀ child ∈ (addEntriesTo graph entries).2.filterMap (·.2), nodes child) →
      ∀ entry ∈ entries, refusedKey? entry.1.shown = none ∧ entry.2.ReservedFree
  | [], _, _, _ => by simp
  | (k, v) :: rest, hgraph, hkeys, hchildren => by
      have hrest : (addEntriesTo (v.addTo graph).1 rest).1.Extends large := hgraph
      refine List.forall_mem_cons.mpr ⟨⟨hkeys _ (List.mem_cons_self ..), ?_⟩, ?_⟩
      · refine reservedFree_of_clean hclean graph v ((extends_addEntriesTo _ rest).trans hrest) ?_
        intro node hnode
        refine hchildren node (List.mem_filterMap.mpr ⟨(k.shown, some node), ?_, rfl⟩)
        exact List.mem_cons.mpr (.inl (Prod.ext rfl hnode.symm))
      · refine entriesFree_of_clean hclean _ rest hrest
          (fun key hkey => hkeys key (List.mem_cons_of_mem _ hkey)) fun child hchild => ?_
        obtain ⟨node, hmem, hnode⟩ := List.mem_filterMap.mp hchild
        exact hchildren child (List.mem_filterMap.mpr ⟨node, List.mem_cons_of_mem _ hmem, hnode⟩)

end

theorem reservedFree_of_refusal? {v : Value} (h : v.refusal? = none) : v.ReservedFree := by
  unfold refusal? at h
  split at h
  next graph node hadd =>
    obtain ⟨nodes, hclean, hnode⟩ :=
      exists_clean_of_refusalFrom? (Placement.lasting_separates graph) trivial h
    refine reservedFree_of_clean hclean #[] v ?_ ?_
    · rw [hadd]
      exact fun _ _ h => h
    · rw [hadd]
      intro _ hfound
      cases hfound
      exact hnode
  next graph hadd =>
    -- The value has no node, so the empty set of nodes will do.
    have hclean : graph.Clean fun _ => False := fun _ _ hnone => hnone.elim
    refine reservedFree_of_clean hclean #[] v ?_ ?_
    · rw [hadd]
      exact fun _ _ h => h
    · simp [hadd]

/-! ### Keys that are found -/

theorem map_fst_addEntriesTo (graph : ContainerGraph) (entries : List (Value × Value)) :
    (addEntriesTo graph entries).2.map (·.1) = entries.map (·.1.shown) := by
  induction entries generalizing graph with
  | nil => rfl
  | cons entry rest ih => exact congrArg (entry.1.shown :: ·) (ih _)

mutual

/-- The containers that a value adds to a graph have no keys but those of mappings in the value. -/
theorem hasKey_of_addTo {node : Nat} {container : Container} (graph : ContainerGraph) :
    (v : Value) → (v.addTo graph).1[node]? = some container →
      graph[node]? = some container ∨ ∀ key ∈ container.keys, v.HasKey key
  | list items, h | ring items, h | tuple items, h | set items, h | frozenSet items, h => by
      obtain h | rfl := getElem?_push_eq_some h
      · refine (hasKey_of_addItemsTo graph items h).imp_right fun hkeys key hkey => ?_
        obtain ⟨held, hheld, hkey⟩ := hkeys key hkey
        exact hkey.of_held (by simp [contents, hheld])
      · exact .inr (by simp [Container.keys])
  | map entries, h => by
      obtain h | rfl := getElem?_push_eq_some h
      · refine (hasKey_of_addEntriesTo graph entries h).imp_right fun hkeys key hkey => ?_
        obtain ⟨entry, hentry, hkey⟩ := hkeys key hkey
        exact hkey.of_held (List.mem_map_of_mem hentry)
      · refine .inr fun key hkey => ⟨entries, .refl _, ?_⟩
        rw [Container.keys, map_fst_addEntriesTo] at hkey
        exact List.mem_map.mp hkey
  | null, h | bool _, h | int _, h | real _, h | text _, h | bytes _, h | objectId _, h
  | timestamp _, h | date _, h | operator _, h | pattern _, h | clause .., h | paging .., h
  | request .., h => .inl h

theorem hasKey_of_addItemsTo {node : Nat} {container : Container} (graph : ContainerGraph) :
    (items : List Value) → (addItemsTo graph items).1[node]? = some container →
      graph[node]? = some container ∨ ∀ key ∈ container.keys, ∃ v ∈ items, v.HasKey key
  | [], h => .inl h
  | v :: rest, h => by
      obtain h | hkeys := hasKey_of_addItemsTo (v.addTo graph).1 rest h
      · refine (hasKey_of_addTo graph v h).imp_right fun hkeys key hkey => ?_
        exact ⟨v, List.mem_cons_self, hkeys key hkey⟩
      · refine .inr fun key hkey => ?_
        obtain ⟨held, hheld, hkey⟩ := hkeys key hkey
        exact ⟨held, List.mem_cons_of_mem _ hheld, hkey⟩

theorem hasKey_of_addEntriesTo {node : Nat} {container : Container} (graph : ContainerGraph) :
    (entries : List (Value × Value)) → (addEntriesTo graph entries).1[node]? = some container →
      graph[node]? = some container ∨ ∀ key ∈ container.keys, ∃ entry ∈ entries, entry.2.HasKey key
  | [], h => .inl h
  | (k, v) :: rest, h => by
      obtain h | hkeys := hasKey_of_addEntriesTo (v.addTo graph).1 rest h
      · refine (hasKey_of_addTo graph v h).imp_right fun hkeys key hkey => ?_
        exact ⟨(k, v), List.mem_cons_self, hkeys key hkey⟩
      · refine .inr fun key hkey => ?_
        obtain ⟨entry, hentry, hkey⟩ := hkeys key hkey
        exact ⟨entry, List.mem_cons_of_mem _ hentry, hkey⟩

end

theorem hasKey_of_refusal? {v : Value} {failure : Failure} (h : v.refusal? = some failure) :
    ∃ key, refusedKey? key = some failure ∧ v.HasKey key := by
  unfold refusal? at h
  split at h
  next graph start hadd =>
    obtain ⟨node, container, hcontainer, key, hkey, hrefused⟩ := exists_of_scan_eq_some h
    have hnode : (v.addTo #[]).1[node]? = some container := by rwa [hadd]
    obtain hnone | hkeys := hasKey_of_addTo #[] v hnode
    · simp at hnone
    · exact ⟨key, hrefused, hkeys key hkey⟩
  next => cases h

/-- The scan passes exactly what holds no refused key, at any depth. -/
theorem refusal?_eq_none_iff {v : Value} : v.refusal? = none ↔ v.ReservedFree := by
  refine ⟨reservedFree_of_refusal?, fun hfree => ?_⟩
  cases hfound : v.refusal? with
  | none => rfl
  | some failure =>
      obtain ⟨key, hrefused, hkey⟩ := hasKey_of_refusal? hfound
      rw [hfree.of_hasKey hkey] at hrefused
      cases hrefused

end Value

/-! ### Operands -/

theorem checkOperand_cases (v : Value) :
    checkOperand v = .ok () ∧ v.refusal? = none ∨
      ∃ failure, checkOperand v = .error failure ∧ v.refusal? = some failure := by
  unfold checkOperand
  cases v.refusal? with
  | none => exact .inl ⟨rfl, rfl⟩
  | some failure => exact .inr ⟨failure, rfl, rfl⟩

theorem checkOperand_of_refusal? {v : Value} {failure : Failure} (h : v.refusal? = some failure) :
    checkOperand v = .error failure := by
  rw [checkOperand, h]

theorem checkOperand_eq_ok_iff {v : Value} : checkOperand v = .ok () ↔ v.ReservedFree := by
  rw [← Value.refusal?_eq_none_iff]
  obtain ⟨hcheck, hrefusal⟩ | ⟨failure, hcheck, hrefusal⟩ := checkOperand_cases v
  · simp [hcheck, hrefusal]
  · simp [hcheck, hrefusal]

theorem refusedKey?_eq_some_iff {key : Except Failure String} {failure : Failure} :
    refusedKey? key = some failure ↔
      (∃ text, key = .ok text ∧ isReservedKey text = true ∧ failure = .reservedKey text) ∨
        key = .error failure := by
  cases key with
  | ok text =>
      rw [show refusedKey? (.ok text) = if isReservedKey text then some (.reservedKey text) else none
        from rfl]
      split_ifs with hreserved
      · rw [Option.some.injEq, eq_comm]
        simp [hreserved]
      · simp [hreserved]
  | error cause => simp [refusedKey?]

theorem hasKey_of_checkOperand {v : Value} {failure : Failure} (h : checkOperand v = .error failure) :
    (∃ text, v.HasKey (.ok text) ∧ isReservedKey text = true ∧ failure = .reservedKey text) ∨
      v.HasKey (.error failure) := by
  obtain ⟨hcheck, -⟩ | ⟨found, hcheck, hrefusal⟩ := checkOperand_cases v
  · cases hcheck.symm.trans h
  · cases hcheck.symm.trans h
    obtain ⟨key, hrefused, hkey⟩ := Value.hasKey_of_refusal? hrefusal
    obtain ⟨text, rfl, hreserved, rfl⟩ | rfl := refusedKey?_eq_some_iff.mp hrefused
    · exact .inl ⟨text, hkey, hreserved, rfl⟩
    · exact .inr hkey

end DocFilter
