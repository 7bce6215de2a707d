import PolicyExpr.Proofs.Sameness
import PolicyExpr.Selection.Recursive

/-!
# Recursive steps walk through their base

Whatever is inside a value stands at a path, which says at each level with which child to go on. A
value comes before what is inside it, and all of that before its next sibling; this is the
lexicographic order of paths. The three recursive steps go through the values in this order, and fail
at the same depth.
-/
namespace PolicyExpr

namespace Value

/-! ## Paths -/

/-- The values directly inside a value. -/
def children (v : Value) : List Value :=
  match v.kind with
  | .array items => items
  | .object entries => entries.map Prod.snd
  | _ => []

/-- The value at a path: at each level the number of the child to go on with. -/
def at? : Value → List Nat → Option Value
  | v, [] => some v
  | v, i :: path => v.children[i]?.bind fun child => child.at? path

/-- Something lies more than so many levels below a value. -/
def NestsBeyond (levels : Nat) (v : Value) : Prop :=
  ∃ path : List Nat, levels < path.length ∧ (v.at? path).isSome

/-- What holds of a value whose children it holds of, holds of all values. -/
theorem induct_children {P : Value → Prop} (step : ∀ v : Value, (∀ c ∈ v.children, P c) → P v)
    (v : Value) : P v := by
  induction v using induct with
  | step v items entries =>
    apply step
    intro c hc
    unfold children at hc
    split at hc
    · next hkind => exact items _ hkind c hc
    · next hkind =>
      obtain ⟨e, he, rfl⟩ := List.mem_map.1 hc
      exact entries _ hkind e he
    · cases hc

end Value

namespace Selection

open Value

variable {base v c : Value} {cs found below others : List Value} {paths ps qs : List (List Nat)}
  {depth : Nat}

/-! ## Depth first, parents before children -/

/-- What a traversal finds inside a base: the values at all paths but the empty one, in the order of
the paths. -/
structure IsTraversal (base : Value) (paths : List (List Nat)) (found : List Value) : Prop where
  ordered : paths.Pairwise (· < ·)
  complete : ∀ path, path ∈ paths ↔ path ≠ [] ∧ (base.at? path).isSome
  values : found.map some = paths.map base.at?

/-- The same path from the next sibling on. -/
def nextSibling : List Nat → List Nat
  | [] => []
  | i :: path => (i + 1) :: path

theorem nextSibling_lt {p q : List Nat} (hp : p ≠ []) (h : p < q) :
    nextSibling p < nextSibling q := by
  cases p with
  | nil => exact absurd rfl hp
  | cons i p =>
    cases q with
    | nil => exact absurd h (List.not_lt_nil _)
    | cons j q => simpa [nextSibling, List.cons_lt_cons_iff] using h

theorem at?_nextSibling {p : List Nat} (hp : p ≠ []) :
    (array (c :: cs)).at? (nextSibling p) = (array cs).at? p := by
  cases p with
  | nil => exact absurd rfl hp
  | cons i p => rfl

theorem at?_first (p : List Nat) : (array (c :: cs)).at? (0 :: p) = c.at? p := rfl

/-- A path leads to the first of some siblings, into it, or to the others. -/
theorem isSome_at?_cons (p : List Nat) : p ≠ [] ∧ ((array (c :: cs)).at? p).isSome ↔
    p = [0] ∨ (∃ q, (q ≠ [] ∧ (c.at? q).isSome) ∧ 0 :: q = p) ∨
      ∃ q, (q ≠ [] ∧ ((array cs).at? q).isSome) ∧ nextSibling q = p := by
  constructor
  · rintro ⟨hp, hsome⟩
    match p, hp, hsome with
    | [0], _, _ => exact .inl rfl
    | 0 :: i :: q, _, hsome => exact .inr (.inl ⟨i :: q, ⟨by simp, hsome⟩, rfl⟩)
    | (i + 1) :: q, _, hsome => exact .inr (.inr ⟨i :: q, ⟨by simp, hsome⟩, rfl⟩)
  · rintro (rfl | ⟨q, ⟨hq, hsome⟩, rfl⟩ | ⟨q, ⟨hq, hsome⟩, rfl⟩)
    · exact ⟨by simp, rfl⟩
    · exact ⟨by simp, hsome⟩
    · refine ⟨?_, ?_⟩
      · cases q <;> simp_all [nextSibling]
      · rwa [at?_nextSibling hq]

/-- A traversal of some siblings: the first one, what is inside it, and the others. -/
theorem isTraversal_cons (hfirst : IsTraversal c ps below)
    (hothers : IsTraversal (array cs) qs others) :
    IsTraversal (array (c :: cs)) ([0] :: ps.map (0 :: ·) ++ qs.map nextSibling)
      (c :: below ++ others) where
  ordered := by
    have inside : ∀ p ∈ ps, p ≠ [] := fun p hp => ((hfirst.complete p).1 hp).1
    have beside : ∀ q ∈ qs, q ≠ [] := fun q hq => ((hothers.complete q).1 hq).1
    have before : ∀ (p q : List Nat), q ∈ qs → 0 :: p < nextSibling q := by
      intro p q hq
      cases q with
      | nil => exact absurd rfl (beside _ hq)
      | cons i q => simp [nextSibling, List.cons_lt_cons_iff]
    rw [List.cons_append, List.pairwise_cons, List.pairwise_append]
    refine ⟨?_, ?_, ?_, ?_⟩
    · intro p hp
      rcases List.mem_append.1 hp with hp | hp
      · obtain ⟨q, hq, rfl⟩ := List.mem_map.1 hp
        cases q with
        | nil => exact absurd rfl (inside _ hq)
        | cons i q => simp
      · obtain ⟨q, hq, rfl⟩ := List.mem_map.1 hp
        exact before [] q hq
    · rw [List.pairwise_map]
      exact hfirst.ordered.imp fun h => by simpa [List.cons_lt_cons_iff] using h
    · rw [List.pairwise_map]
      exact hothers.ordered.imp_of_mem fun hp _ h => nextSibling_lt (beside _ hp) h
    · intro p hp q hq
      obtain ⟨p, -, rfl⟩ := List.mem_map.1 hp
      obtain ⟨r, hr, rfl⟩ := List.mem_map.1 hq
      exact before p r hr
  complete p := by
    rw [isSome_at?_cons]
    simp [hfirst.complete, hothers.complete]
  values := by
    have beside : ∀ q ∈ qs, (array (c :: cs)).at? (nextSibling q) = (array cs).at? q :=
      fun q hq => at?_nextSibling ((hothers.complete q).1 hq).1
    have first : (array (c :: cs)).at? [0] = some c := rfl
    simp [hfirst.values, hothers.values, first, at?_first, Function.comp_def,
      List.map_congr_left beside]

/-- Nothing but the children of a base tells its traversals. -/
theorem isTraversal_congr {w : Value} (h : v.children = w.children)
    (hv : IsTraversal v paths found) : IsTraversal w paths found := by
  have same : ∀ p : List Nat, p ≠ [] → v.at? p = w.at? p := by
    intro p hp
    cases p with
    | nil => exact absurd rfl hp
    | cons i p => simp [at?, h]
  refine ⟨hv.ordered, fun p => ?_, ?_⟩
  · rw [hv.complete]
    exact and_congr_right fun hp => by rw [same p hp]
  · rw [hv.values]
    exact List.map_congr_left fun p hp => same p ((hv.complete p).1 hp).1

/-! ## What recursive steps look at -/

theorem entryDescendants_eq (depth : Nat) (es : List (String × Value)) :
    entryDescendants depth es = itemDescendants depth (es.map Prod.snd) := by
  induction es with
  | nil => rfl
  | cons e rest ih => simp [entryDescendants, itemDescendants, ih]

theorem entryContainers_eq (depth : Nat) (es : List (String × Value)) :
    entryContainers depth es = itemContainers depth (es.map Prod.snd) := by
  induction es with
  | nil => rfl
  | cons e rest ih => simp [entryContainers, itemContainers, ih]

theorem descendants_eq (depth : Nat) (v : Value) : descendants depth v =
    if maxDepth < depth then none else itemDescendants (depth + 1) v.children := by
  obtain ⟨kind, m⟩ := v
  unfold descendants children
  cases kind <;> simp [entryDescendants_eq, itemDescendants]

/-- A value in which there may be others. -/
def isContainer (v : Value) : Bool := v.asArray?.isSome || v.asObject?.isSome

theorem containers_eq (depth : Nat) (v : Value) : containers depth v =
    if maxDepth < depth then none
    else if isContainer v then (itemContainers (depth + 1) v.children).map (v :: ·)
    else some [] := by
  obtain ⟨kind, m⟩ := v
  unfold containers children
  cases kind <;> simp [entryContainers_eq, isContainer, asArray?, asObject?]

theorem itemDescendants_cons_eq_some (h : itemDescendants depth (c :: cs) = some found) :
    ∃ below others, descendants depth c = some below ∧ itemDescendants depth cs = some others ∧
      found = c :: below ++ others := by
  obtain ⟨below, hbelow, h⟩ := Option.bind_eq_some_iff.1 h
  obtain ⟨others, hothers, h⟩ := Option.bind_eq_some_iff.1 h
  cases h
  exact ⟨below, others, hbelow, hothers, rfl⟩

/-- Where what is found inside each of some siblings is a traversal of it, so is what is found for all
of them. -/
theorem isTraversal_of_itemDescendants (hcs : ∀ c ∈ cs, ∀ below, descendants depth c = some below →
    ∃ paths, IsTraversal c paths below) (h : itemDescendants depth cs = some found) :
    ∃ paths, IsTraversal (array cs) paths found := by
  induction cs generalizing found with
  | nil =>
    cases h
    refine ⟨[], by simp, fun p => ?_, rfl⟩
    cases p <;> simp [at?, children, array, ofKind]
  | cons c cs ih =>
    obtain ⟨below, others, hbelow, hothers, rfl⟩ := itemDescendants_cons_eq_some h
    obtain ⟨ps, hps⟩ := hcs c (by simp) below hbelow
    obtain ⟨qs, hqs⟩ := ih (fun d hd => hcs d (by simp [hd])) hothers
    exact ⟨_, isTraversal_cons hps hqs⟩

/-- What is found inside a base is a traversal of it. -/
theorem isTraversal_of_descendants (h : descendants depth base = some found) :
    ∃ paths, IsTraversal base paths found := by
  induction base using induct_children generalizing depth found with
  | step v ih =>
    rw [descendants_eq] at h
    split at h
    · cases h
    · obtain ⟨paths, hpaths⟩ :=
        isTraversal_of_itemDescendants (fun c hc below hbelow => ih c hc hbelow) h
      have same : (array v.children).children = v.children := rfl
      exact ⟨paths, isTraversal_congr same hpaths⟩

theorem itemDescendants_eq_none_iff :
    itemDescendants depth cs = none ↔ ∃ c ∈ cs, descendants depth c = none := by
  induction cs with
  | nil => simp [itemDescendants]
  | cons c cs ih =>
    rw [itemDescendants]
    cases hc : descendants depth c with
    | none => simp [hc]
    | some below =>
      cases hcs : itemDescendants depth cs <;> simp_all

/-- A traversal gives up where something lies too deep. -/
theorem descendants_eq_none_iff : descendants depth v = none ↔
    ∃ path : List Nat, maxDepth < depth + path.length ∧ (v.at? path).isSome := by
  induction v using induct_children generalizing depth with
  | step v ih =>
    rw [descendants_eq]
    constructor
    · intro h
      split at h
      · next hdeep => exact ⟨[], by simpa using hdeep, rfl⟩
      · obtain ⟨c, hc, hnone⟩ := itemDescendants_eq_none_iff.1 h
        obtain ⟨path, hdeep, hsome⟩ := (ih c hc).1 hnone
        obtain ⟨i, hi⟩ := List.mem_iff_getElem?.1 hc
        refine ⟨i :: path, ?_, ?_⟩
        · simp only [List.length_cons]
          omega
        · simpa [at?, hi] using hsome
    · rintro ⟨path, hdeep, hsome⟩
      split
      · rfl
      · cases path with
        | nil => exact absurd (by simpa using hdeep) ‹¬maxDepth < depth›
        | cons i path =>
          obtain ⟨w, hw⟩ := Option.isSome_iff_exists.1 hsome
          obtain ⟨c, hi, hw⟩ := Option.bind_eq_some_iff.1 hw
          have hc := List.mem_of_getElem? hi
          refine itemDescendants_eq_none_iff.2 ⟨c, hc, (ih c hc).2 ⟨path, ?_, ?_⟩⟩
          · simp only [List.length_cons] at hdeep
            omega
          · simp [hw]

theorem itemContainers_eq_filter (hcs : ∀ c ∈ cs, containers depth c =
    (descendants depth c).map fun below => (c :: below).filter isContainer) :
    itemContainers depth cs = (itemDescendants depth cs).map (List.filter isContainer) := by
  induction cs with
  | nil => rfl
  | cons c cs ih =>
    rw [itemContainers, itemDescendants, hcs c (by simp), ih fun d hd => hcs d (by simp [hd])]
    cases descendants depth c with
    | none => rfl
    | some below =>
      cases itemDescendants depth cs with
      | none => rfl
      | some others =>
        exact congrArg some (List.filter_append (p := isContainer) (c :: below) others).symm

/-- The containers in a base are those among the base and what is found inside it. -/
theorem containers_eq_filter (depth : Nat) (v : Value) :
    containers depth v = (descendants depth v).map fun found => (v :: found).filter isContainer := by
  induction v using induct_children generalizing depth with
  | step v ih =>
    rw [containers_eq, descendants_eq]
    split
    · rfl
    · by_cases hcontainer : isContainer v = true
      · rw [if_pos hcontainer, itemContainers_eq_filter fun c hc => ih c hc (depth + 1)]
        cases itemDescendants (depth + 1) v.children <;> simp [hcontainer]
      · -- Only one of the two recursions looks for children of a leaf, but there are none.
        have leaf : v.children = [] := by
          obtain ⟨kind, m⟩ := v
          cases kind <;> simp_all [isContainer, asArray?, asObject?, children]
        simp [hcontainer, leaf, itemDescendants]

/-! ## Results -/

/-- The value of a key in an object. -/
def field? (name : String) (v : Value) : Option Value := v.asObject?.bind (lookup name)

/-- The element at an index of an array. A negative index counts from the end. -/
def element? (i : Int) (v : Value) : Option Value :=
  v.asArray?.bind fun items =>
    if i < 0 then items.reverse[(-i - 1).toNat]? else items[i.toNat]?

theorem position?_bind (i : Int) (items : List Value) :
    (position? i items.length).bind (items[·]?) =
      if i < 0 then items.reverse[(-i - 1).toNat]? else items[i.toNat]? := by
  unfold position?
  dsimp only
  by_cases negative : i < 0
  · rw [if_pos negative, if_pos negative]
    split
    · next within =>
      have place : (-i - 1).toNat < items.length := by omega
      have mirrored : (i + items.length).toNat = items.length - 1 - (-i - 1).toNat := by omega
      rw [Option.bind_some, List.getElem?_reverse place, mirrored]
    · next without =>
      rw [List.getElem?_eq_none (by simp; omega)]
      rfl
  · rw [if_neg negative, if_neg negative]
    split
    · rfl
    · next without =>
      rw [List.getElem?_eq_none (by omega)]
      rfl

theorem recursive_eq_failed_iff (found : Option (List Value)) :
    recursive base found = failed .nesting base ↔ found = none := by
  cases found with
  | none => simp [recursive]
  | some vs =>
    have kinds : (recursive base (some vs)).type ≠ (failed .nesting base).type := nofun
    simp only [reduceCtorEq, iff_false]
    exact fun h => kinds (congrArg Value.type h)

/-- What is read from the containers is what is read from everything. -/
theorem filterMap_containers {α : Type} {f : Value → Option α}
    (h : ∀ v, isContainer v = false → f v = none) (vs : List Value) :
    (vs.filter isContainer).filterMap f = vs.filterMap f := by
  rw [List.filterMap_filter]
  congr 1
  funext v
  by_cases hv : isContainer v = true
  · rw [if_pos hv]
  · rw [if_neg hv, h v (by simpa using hv)]

/-- A result without lineage of its own gets that of the base. -/
theorem derived_ofKind (kind : Kind Value) (base : Value) :
    derived (ofKind kind) base = ⟨kind, base.metadata⟩ :=
  congrArg (Value.mk kind) (Metadata.empty_merge base.metadata)

/-- A recursive step that reads something from each container, read off the traversal. -/
theorem recursive_containers {f : Value → Option Value}
    (hleaf : ∀ v, isContainer v = false → f v = none) (h : descendants 0 base = some found) :
    recursive base ((containers 0 base).map (List.filterMap f)) =
      ⟨.array ((base :: found).filterMap f), base.metadata⟩ := by
  rw [containers_eq_filter, h]
  exact (derived_ofKind _ base).trans (by rw [filterMap_containers hleaf])

theorem nestsBeyond_iff : base.NestsBeyond maxDepth ↔ descendants 0 base = none := by
  simp [NestsBeyond, descendants_eq_none_iff]

/-- The recursive steps fail on the same bases: those in which something, a container or not, lies
more than 500 levels down. On any other base the step for everything lists the traversal of what is
inside the base, and the steps for a key and for an index list, in this order, what the base and each
of these values has there. -/
theorem recursive_steps_traverse (h : passesThrough base = false) :
    (recursiveWildcard base = failed .nesting base ↔ base.NestsBeyond 500) ∧
    (∀ name, recursiveKey base name = failed .nesting base ↔ base.NestsBeyond 500) ∧
    (∀ i, recursiveIndex base i = failed .nesting base ↔ base.NestsBeyond 500) ∧
    (¬ base.NestsBeyond 500 → ∃ paths found, IsTraversal base paths found ∧
      recursiveWildcard base = ⟨.array found, base.metadata⟩ ∧
      (∀ name, recursiveKey base name =
        ⟨.array ((base :: found).filterMap (field? name)), base.metadata⟩) ∧
      ∀ i, recursiveIndex base i =
        ⟨.array ((base :: found).filterMap (element? i)), base.metadata⟩) := by
  have everything : recursiveWildcard base = recursive base (descendants 0 base) := by
    simp [recursiveWildcard, h]
  have fields (name : String) : recursiveKey base name =
      recursive base ((containers 0 base).map (List.filterMap (field? name))) := by
    rw [recursiveKey, if_neg (by simp [h])]
    rfl
  have elements (i : Int) : recursiveIndex base i =
      recursive base ((containers 0 base).map (List.filterMap (element? i))) := by
    simp only [recursiveIndex, h, position?_bind]
    rfl
  have deep : base.NestsBeyond 500 ↔ descendants 0 base = none := nestsBeyond_iff
  refine ⟨?_, fun name => ?_, fun i => ?_, fun hshallow => ?_⟩
  · rw [everything, recursive_eq_failed_iff, deep]
  · rw [fields, recursive_eq_failed_iff, deep, containers_eq_filter]
    simp
  · rw [elements, recursive_eq_failed_iff, deep, containers_eq_filter]
    simp
  · obtain ⟨found, hfound⟩ := Option.ne_none_iff_exists'.1 (mt deep.2 hshallow)
    obtain ⟨paths, hpaths⟩ := isTraversal_of_descendants hfound
    refine ⟨paths, found, hpaths, ?_, fun name => ?_, fun i => ?_⟩
    · rw [everything, hfound]
      exact derived_ofKind (.array found) base
    · rw [fields]
      exact recursive_containers (by simp +contextual [isContainer, field?]) hfound
    · rw [elements]
      exact recursive_containers (by simp +contextual [isContainer, element?]) hfound

/-- An object in an array in a secret object: both values of the key are found, and the last element
of the one array. -/
theorem recursive_steps_traverse_nested :
    let inner : Value := .object [("x", .ofNat 2)]
    let row : Value := .array [.ofNat 1, inner]
    let base : Value := (Value.object [("x", row)]).asSecret
    passesThrough base = false ∧ ¬ base.NestsBeyond 500 ∧
    ∃ paths, IsTraversal base paths [row, .ofNat 1, inner, .ofNat 2] ∧
      recursiveWildcard base = ⟨.array [row, .ofNat 1, inner, .ofNat 2], .hidden⟩ ∧
      recursiveKey base "x" = ⟨.array [row, .ofNat 2], .hidden⟩ ∧
      recursiveIndex base (-1) = ⟨.array [inner], .hidden⟩ := by
  intro inner row base
  have looks : passesThrough base = false := rfl
  obtain ⟨fails, -, -, finds⟩ := recursive_steps_traverse looks
  have shallow : ¬ base.NestsBeyond 500 := fun deep => nomatch congrArg Value.type (fails.2 deep)
  obtain ⟨paths, found, traversal, everything, fields, elements⟩ := finds shallow
  have listed : found = [row, .ofNat 1, inner, .ofNat 2] := by
    cases everything
    rfl
  subst listed
  exact ⟨looks, shallow, paths, traversal, everything, fields "x", elements (-1)⟩

end Selection

end PolicyExpr
