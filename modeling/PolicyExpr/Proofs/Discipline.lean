import PolicyExpr.Compile
import PolicyExpr.Proofs.Faults

/-!
# Disciplines

A discipline is a property of values that the language keeps. It may ask more of the parts of arrays
and objects than of a value on its own, as Undefined and errors are never put into them, and it may
ask something of errors that the node which computes them has to see to, by giving them its place.

Operators and selections keep every discipline: what they make is one of their operands, a part of
one, a scalar, Undefined, an error without a place, or an array or object of such parts.
-/
namespace PolicyExpr

/-- A computation whose result, if there is one, has `Q`. -/
abbrev Eval.Gives {α : Type} (Q : α → Prop) (x : Eval α) : Prop := Ends (fun _ => True) Q x

/-- A property of values that depends on no metadata and comes down to the parts of containers. -/
structure Discipline where
  /-- What is asked of a value; where `strict`, also of one that is an error. -/
  Holds (strict : Bool) : Value → Prop
  /-- What is asked of the elements of arrays and the fields of objects. -/
  Part : Value → Prop
  /-- Where a node may be. -/
  Place : SourceLocation → Prop
  of_kind {strict : Bool} {v w : Value} (h : Holds strict v) (hkind : w.kind = v.kind) :
    Holds strict w
  /-- A value without parts, unless it is an error with a place. -/
  leaf {v : Value} (harray : v.asArray? = none) (hobject : v.asObject? = none)
    (herror : ∀ f l, v.kind ≠ .error f (some l)) : Holds false v
  array {vs : List Value} : Holds false (.array vs) ↔ ∀ v ∈ vs, Part v
  object {es : List (String × Value)} : Holds false (.object es) ↔ ∀ e ∈ es, Part e.2
  part {v : Value} (h : Holds false v) (herror : v.isError = false)
    (hundefined : v.isUndefined = false) : Part v
  whole {v : Value} (h : Part v) : Holds false v
  lax {v : Value} (h : Holds true v) : Holds false v
  strict {v : Value} (h : Holds false v) (herror : v.isError = false) : Holds true v
  locate {v : Value} {l : SourceLocation} (hl : Place l) (h : Holds false v) :
    Holds true (v.locate l)

open Value

namespace Discipline

variable {D : Discipline} {strict : Bool} {v w : Value} {vs : List Value}
  {es : List (String × Value)} {m : Metadata} {l : SourceLocation}

/-! ## Values -/

@[simp] theorem holds_withMetadata : D.Holds strict (v.withMetadata m) ↔ D.Holds strict v :=
  ⟨fun h => D.of_kind h rfl, fun h => D.of_kind h rfl⟩

@[simp] theorem holds_mergeMetadata : D.Holds strict (v.mergeMetadata m) ↔ D.Holds strict v :=
  ⟨fun h => D.of_kind h rfl, fun h => D.of_kind h rfl⟩

theorem Holds.weaken (h : D.Holds true v) : D.Holds strict v := by
  cases strict with
  | false => exact D.lax h
  | true => exact h

theorem Holds.lax (h : D.Holds strict v) : D.Holds false v := by
  cases strict with
  | false => exact h
  | true => exact D.lax h

theorem Holds.of_isError (h : D.Holds false v) (hv : v.isError = false) : D.Holds strict v :=
  Holds.weaken (D.strict h hv)

theorem holds_locate (hl : D.Place l) (h : D.Holds false v) : D.Holds strict (v.locate l) :=
  Holds.weaken (D.locate hl h)

theorem holds_scalar (harray : v.asArray? = none) (hobject : v.asObject? = none)
    (herror : v.isError = false) : D.Holds strict v := by
  refine Holds.of_isError (D.leaf harray hobject fun f l hkind => ?_) herror
  rw [isError, type, hkind] at herror
  cases herror

@[simp] theorem holds_boolean (b : Bool) : D.Holds strict (boolean b) := holds_scalar rfl rfl rfl

@[simp] theorem holds_number (n : Decimal) : D.Holds strict (number n) := holds_scalar rfl rfl rfl

@[simp] theorem holds_text (s : String) : D.Holds strict (text s) := holds_scalar rfl rfl rfl

@[simp] theorem holds_null : D.Holds strict null := holds_scalar rfl rfl rfl

@[simp] theorem holds_undefined : D.Holds strict undefined := holds_scalar rfl rfl rfl

@[simp] theorem holds_failure (f : Failure) : D.Holds false (failure f) := D.leaf rfl rfl nofun

theorem holds_failureAt (hl : D.Place l) (f : Failure) : D.Holds strict (failureAt f l) :=
  holds_locate (v := failure f) hl (holds_failure f)

theorem Holds.items (h : D.Holds false v) (hkind : v.kind = .array vs) : ∀ w ∈ vs, D.Part w :=
  D.array.1 (D.of_kind h hkind.symm)

theorem Holds.entries (h : D.Holds false v) (hkind : v.kind = .object es) :
    ∀ e ∈ es, D.Part e.2 :=
  D.object.1 (D.of_kind h hkind.symm)

theorem Holds.asArray (h : D.Holds false v) (hv : v.asArray? = some vs) : ∀ w ∈ vs, D.Part w := by
  unfold asArray? at hv
  split at hv
  · next hkind =>
    cases hv
    exact h.items hkind
  · cases hv

theorem Holds.asObject (h : D.Holds false v) (hv : v.asObject? = some es) :
    ∀ e ∈ es, D.Part e.2 := by
  unfold asObject? at hv
  split at hv
  · next hkind =>
    cases hv
    exact h.entries hkind
  · cases hv

end Discipline

/-! ### Entries of objects -/

namespace Value

variable {P : Value → Prop} {es : List (String × Value)} {v : Value}

theorem mem_of_lookup {key : String} (h : lookup key es = some v) :
    ∃ e ∈ es, e.2 = v := by
  induction es with
  | nil => cases h
  | cons e rest ih =>
    obtain ⟨k, w⟩ := e
    rw [lookup] at h
    split at h
    · cases h
      exact ⟨_, List.Mem.head _, rfl⟩
    · obtain ⟨e, he, hv⟩ := ih h
      exact ⟨e, List.mem_cons_of_mem _ he, hv⟩

theorem of_lookup {key : String} (h : ∀ e ∈ es, P e.2) (hv : lookup key es = some v) : P v := by
  obtain ⟨e, he, rfl⟩ := mem_of_lookup hv
  exact h e he

theorem forall_mem_put {key : String} (h : ∀ e ∈ es, P e.2) (hv : P v) :
    ∀ e ∈ put es key v, P e.2 := by
  induction es with
  | nil => simpa [put] using hv
  | cons e rest ih =>
    obtain ⟨he, hrest⟩ := List.forall_mem_cons.1 h
    rw [put]
    split
    · exact List.forall_mem_cons.2 ⟨hv, hrest⟩
    · exact List.forall_mem_cons.2 ⟨he, ih hrest⟩

theorem forall_mem_ofEntries (h : ∀ e ∈ es, P e.2) : ∀ e ∈ ofEntries es, P e.2 := by
  -- Every entry is put behind those before it.
  have folded : ∀ (rest start : List (String × Value)), (∀ e ∈ rest, P e.2) →
      (∀ e ∈ start, P e.2) →
      ∀ e ∈ rest.foldl (fun object e => put object e.1 e.2) start, P e.2 := by
    intro rest
    induction rest with
    | nil => exact fun _ _ hstart => hstart
    | cons e rest ih =>
      intro start hrest hstart
      obtain ⟨he, hrest⟩ := List.forall_mem_cons.1 hrest
      exact ih _ hrest (forall_mem_put hstart he)
  exact folded es [] h nofun

end Value

open Discipline

variable {D : Discipline} {strict : Bool}

/-! ## Operators -/

namespace Operator

variable {a b v e : Value} {vs : List Value} {l : SourceLocation}

/-- The first error is one of the operands, but for its metadata. -/
theorem kind_firstError (h : firstError? vs = some e) :
    ∃ v ∈ vs, e.kind = v.kind := by
  obtain ⟨w, hw, rfl⟩ := Option.map_eq_some_iff.1 h
  exact ⟨w, List.mem_of_find?_eq_some hw, rfl⟩

/-- Without a first error there is none. -/
theorem isError_of_firstError (h : firstError? vs = none) : ∀ v ∈ vs, v.isError = false := by
  have hfind : vs.find? isError = none := Option.map_eq_none_iff.1 h
  simpa using hfind

theorem holds_firstError (h : firstError? vs = some e) (hvs : ∀ v ∈ vs, D.Holds strict v) :
    D.Holds strict e := by
  obtain ⟨v, hv, hkind⟩ := kind_firstError h
  exact D.of_kind (hvs v hv) hkind

theorem holds_binary {op : Value → Value → Value} (ha : D.Holds false a) (hb : D.Holds false b)
    (hop : D.Holds false (op a b)) : D.Holds false (binary a b op) := by
  unfold binary
  split
  · next he => exact holds_firstError he (by simp [ha, hb])
  · exact holds_withMetadata.2 hop

theorem holds_numeric {op : Decimal → Decimal → Except ArithmeticError Decimal}
    (ha : D.Holds false a) (hb : D.Holds false b) : D.Holds false (numeric a b op) := by
  refine holds_binary ha hb ?_
  split
  · split <;> simp
  · simp
  · simp

theorem holds_comparison {accepts : Ordering → Bool} (ha : D.Holds false a)
    (hb : D.Holds false b) : D.Holds false (comparison a b accepts) := by
  refine holds_binary ha hb ?_
  split <;> simp

theorem holds_add (ha : D.Holds false a) (hb : D.Holds false b) :
    (add a b).Gives (D.Holds false) := by
  unfold add
  split
  · split
    · next he => exact holds_firstError he (by simp [ha, hb])
    · refine Ends.bind (Q := fun _ => True) ?_ fun back _ => ?_
      · cases b.plainText <;> trivial
      · exact holds_withMetadata.2 (holds_text _)
  · exact holds_numeric ha hb

theorem holds_additive (op : AdditiveOperator) (ha : D.Holds false a) (hb : D.Holds false b) :
    (op.apply a b).Gives (D.Holds false) := by
  cases op with
  | plus => exact holds_add ha hb
  | minus => exact holds_numeric ha hb

theorem holds_multiplicative (op : MultiplicativeOperator) (ha : D.Holds false a)
    (hb : D.Holds false b) : (op.apply a b).Gives (D.Holds false) := by
  cases op <;> exact holds_numeric ha hb

theorem holds_contains (ha : D.Holds false a) (hb : D.Holds false b) :
    D.Holds false (contains a b) := by
  refine holds_binary ha hb ?_
  split
  · simp
  · simp
  · split <;> simp
  · simp

theorem holds_relational (op : ComparisonOperator) (ha : D.Holds false a)
    (hb : D.Holds false b) : D.Holds false (op.apply a b) := by
  cases op with
  | membership => exact holds_contains ha hb
  | _ => exact holds_comparison ha hb

theorem holds_matchCompiled {regex : Regex} (ha : D.Holds false a) (hb : D.Holds false b) :
    D.Holds false (matchCompiled a regex b) := by
  refine holds_binary ha hb ?_
  split <;> simp

theorem holds_equality (op : EqualityOperator) (ha : D.Holds false a) (hb : D.Holds false b) :
    D.Holds false (op.apply a b) := by
  cases op with
  | equal =>
    change D.Holds false (equal a b)
    exact holds_binary ha hb (holds_boolean (same a b))
  | notEqual =>
    change D.Holds false (notEqual a b)
    exact holds_binary ha hb (holds_boolean (!same a b))
  | regex =>
    change D.Holds false (regexMatch a b)
    unfold regexMatch
    split
    · next he => exact holds_firstError he (by simp [ha, hb])
    · split
      · exact holds_matchCompiled ha hb
      · simp

theorem holds_unary (op : UnaryOperator) (h : D.Holds false v) : D.Holds false (op.apply v) := by
  cases op with
  | not =>
    change D.Holds false (Operator.not v)
    unfold Operator.not
    split
    · exact h
    · split <;> simp
  | negate =>
    change D.Holds false (negate v)
    unfold negate
    split
    · exact h
    · split <;> simp
  | plus =>
    change D.Holds false (plus v)
    unfold plus
    split
    · exact h
    · simp

theorem holds_eager (op : EagerOperator) (h : ∀ v ∈ vs, D.Holds false v) :
    D.Holds false (eager op vs) := by
  unfold eager
  dsimp only
  split
  · next v hv =>
    split
    · exact holds_mergeMetadata.2 (h v (List.mem_of_find?_eq_some hv))
    · simp
  · simp

/-- What decides a chain is a boolean or has the place of the chain. -/
theorem holds_lazyStep {deciding : Bool} {m : Metadata} (hl : D.Place l) (h : D.Holds false v)
    (he : lazyStep deciding m l v = .decided e) : D.Holds strict e := by
  unfold lazyStep at he
  split at he
  · next w hw =>
    cases he
    refine holds_locate hl (holds_mergeMetadata.2 ?_)
    unfold lazyOperand at hw
    split at hw
    · cases hw
      exact h
    · split at hw
      · cases hw
      · cases hw
        simp
  · split at he
    · cases he
      simp
    · cases he

theorem holds_exhausted (deciding : Bool) (m : Metadata) :
    D.Holds strict (Chain.exhausted deciding m) := holds_withMetadata.2 (holds_boolean _)

theorem holds_chainFrom {ops : List (Value → Value → Eval Value)}
    (hops : ∀ op ∈ ops, ∀ a b, D.Holds false a → D.Holds false b →
      (op a b).Gives (D.Holds false))
    (h : D.Holds false v) (hvs : ∀ v ∈ vs, D.Holds false v) :
    (chainFrom v ops vs).Gives (D.Holds false) := by
  induction ops generalizing v vs with
  | nil => cases vs <;> exact h
  | cons op ops ih =>
    cases vs with
    | nil => exact h
    | cons w vs =>
      obtain ⟨hop, hops⟩ := List.forall_mem_cons.1 hops
      obtain ⟨hw, hvs⟩ := List.forall_mem_cons.1 hvs
      exact (hop v w h hw).bind fun u hu => ih hops hu hvs

theorem holds_chain {ops : List (Value → Value → Eval Value)}
    (hops : ∀ op ∈ ops, ∀ a b, D.Holds false a → D.Holds false b →
      (op a b).Gives (D.Holds false))
    (hvs : ∀ v ∈ vs, D.Holds false v) : (chain ops vs).Gives (D.Holds false) := by
  cases vs with
  | nil => exact holds_undefined
  | cons v vs =>
    obtain ⟨hv, hvs⟩ := List.forall_mem_cons.1 hvs
    exact holds_chainFrom hops hv hvs

theorem holds_onOne {op : Value → Eval Value} (hvs : ∀ v ∈ vs, D.Holds false v)
    (hop : ∀ v, D.Holds false v → (op v).Gives (D.Holds false)) :
    (onOne op vs).Gives (D.Holds false) := by
  unfold onOne
  split
  · next v => exact hop v (hvs v (by simp))
  · exact holds_undefined

theorem holds_onTwo {op : Value → Value → Eval Value} (hvs : ∀ v ∈ vs, D.Holds false v)
    (hop : ∀ a b, D.Holds false a → D.Holds false b → (op a b).Gives (D.Holds false)) :
    (onTwo op vs).Gives (D.Holds false) := by
  unfold onTwo
  split
  · next a b => exact hop a b (hvs a (by simp)) (hvs b (by simp))
  · exact holds_undefined

/-- An array is an error of its parts, or holds what is neither an error nor undefined. -/
theorem holds_arrayOf (h : ∀ v ∈ vs, D.Holds strict v) : D.Holds strict (arrayOf vs) := by
  unfold arrayOf
  split
  · next he => exact holds_firstError he h
  · next hnone =>
    refine Holds.of_isError (holds_withMetadata.2 (D.array.2 fun v hv => ?_)) rfl
    obtain ⟨hv, hdefined⟩ := List.mem_filter.1 hv
    exact D.part (h v hv).lax (isError_of_firstError hnone v hv) (by simpa using hdefined)

theorem holds_objectOf (keys : List String) (h : ∀ v ∈ vs, D.Holds strict v) :
    D.Holds strict (objectOf keys vs) := by
  unfold objectOf
  split
  · next he => exact holds_firstError he h
  · next hnone =>
    refine Holds.of_isError (holds_withMetadata.2 (D.object.2 ?_)) rfl
    refine forall_mem_ofEntries fun e he => ?_
    obtain ⟨he, hdefined⟩ := List.mem_filter.1 he
    have hv : e.2 ∈ vs := (List.of_mem_zip he).2
    exact D.part (h e.2 hv).lax (isError_of_firstError hnone e.2 hv) (by simpa using hdefined)

end Operator

/-! ## Selections -/

namespace Selection

variable {base : Value}

theorem holds_derived {result : Value} (h : D.Holds false result) :
    D.Holds false (derived result base) := holds_mergeMetadata.2 h

theorem holds_failed (f : Failure) : D.Holds false (failed f base) :=
  holds_derived (holds_failure f)

theorem part_of_element {items : List Value} {i : Int} {v : Value}
    (h : ∀ w ∈ items, D.Part w)
    (hv : (position? i items.length).bind (items[·]?) = some v) : D.Part v := by
  obtain ⟨n, -, hn⟩ := Option.bind_eq_some_iff.1 hv
  exact h v (List.mem_of_getElem? hn)

theorem holds_key (h : D.Holds false base) (name : String) : D.Holds false (key base name) := by
  unfold key
  split
  · exact h
  · split
    · next hkind =>
      split
      · next hv => exact holds_derived (D.whole (of_lookup (h.entries hkind) hv))
      · exact holds_derived holds_undefined
    · exact holds_failed _

theorem holds_wildcard (h : D.Holds false base) : D.Holds false (wildcard base) := by
  unfold wildcard
  split
  · exact h
  · split
    · exact h
    · next hkind =>
      refine holds_derived (D.array.2 fun v hv => ?_)
      obtain ⟨e, he, rfl⟩ := List.mem_map.1 hv
      exact h.entries hkind e he
    · exact holds_failed _

theorem holds_index (h : D.Holds false base) (i : Int) : D.Holds false (index base i) := by
  unfold index
  split
  · exact h
  · split
    · next hkind =>
      split
      · next hv => exact holds_derived (D.whole (part_of_element (h.items hkind) hv))
      · exact holds_failed _
    · exact holds_failed _

theorem holds_slice (h : D.Holds false base) (from? to? step? : Option Int) :
    D.Holds false (slice base from? to? step?) := by
  unfold slice
  split
  · exact h
  · split
    · next items hkind =>
      dsimp only
      split
      · exact holds_failed _
      · refine holds_derived (D.array.2 fun v hv => ?_)
        obtain ⟨n, -, hn⟩ := List.mem_filterMap.1 hv
        have hn : items[n]? = some v := by simpa using hn
        exact h.items hkind v (List.mem_of_getElem? hn)
    · exact holds_derived holds_undefined

theorem part_of_elementsAt {items selected : List Value} {indices : List Int}
    (h : ∀ w ∈ items, D.Part w) (hs : elementsAt items indices = .ok selected) :
    ∀ w ∈ selected, D.Part w := by
  induction indices generalizing selected with
  | nil =>
    cases hs
    exact nofun
  | cons i rest ih =>
    rw [elementsAt] at hs
    split at hs
    · next hv =>
      obtain ⟨others, hothers, hs⟩ := bind_eq_ok hs
      cases hs
      exact List.forall_mem_cons.2 ⟨part_of_element h hv, ih hothers⟩
    · cases hs

theorem holds_indexUnion (h : D.Holds false base) (indices : List Int) :
    D.Holds false (indexUnion base indices) := by
  unfold indexUnion
  split
  · exact h
  · split
    · next hkind =>
      split
      · next hs => exact holds_derived (D.array.2 (part_of_elementsAt (h.items hkind) hs))
      · exact holds_failed _
    · exact holds_failed _

theorem holds_keyUnion (h : D.Holds false base) (keys : List String) :
    D.Holds false (keyUnion base keys) := by
  unfold keyUnion
  split
  · exact h
  · split
    · next hkind =>
      refine holds_derived (D.array.2 fun v hv => ?_)
      obtain ⟨key, -, hv⟩ := List.mem_filterMap.1 hv
      exact of_lookup (h.entries hkind) hv
    · exact holds_failed _

theorem holds_selector {selector : Value} (h : D.Holds false base)
    (hselector : D.Holds false selector) :
    D.Holds false (Selection.selector base selector) := by
  unfold Selection.selector
  split
  · exact h
  · split
    · exact holds_mergeMetadata.2 hselector
    · split
      · split
        · exact holds_index h _
        · exact holds_failed _
      · exact holds_key h _
      · exact holds_failed _

/-! ### Recursive steps -/

mutual

theorem holds_containers (depth : Nat) : ∀ (v : Value) {found : List Value},
    D.Holds false v → containers depth v = some found → ∀ w ∈ found, D.Holds false w
  | ⟨kind, m⟩, found, h, hfound => by
    unfold containers at hfound
    split at hfound
    · cases hfound
    · split at hfound
      · next items =>
        obtain ⟨inside, hinside, rfl⟩ := Option.map_eq_some_iff.1 hfound
        have hitems : ∀ w ∈ items, D.Part w := h.items rfl
        exact List.forall_mem_cons.2
          ⟨h, holds_itemContainers (depth + 1) items hitems hinside⟩
      · next entries =>
        obtain ⟨inside, hinside, rfl⟩ := Option.map_eq_some_iff.1 hfound
        have hentries : ∀ e ∈ entries, D.Part e.2 := h.entries rfl
        exact List.forall_mem_cons.2
          ⟨h, holds_entryContainers (depth + 1) entries hentries hinside⟩
      · cases hfound
        simp

theorem holds_itemContainers (depth : Nat) : ∀ (vs : List Value) {found : List Value},
    (∀ v ∈ vs, D.Part v) → itemContainers depth vs = some found →
      ∀ w ∈ found, D.Holds false w
  | [], _, _, hfound => by
    cases hfound
    simp
  | v :: rest, _, h, hfound => by
    obtain ⟨hv, hrest⟩ := List.forall_mem_cons.1 h
    obtain ⟨first, hfirst, hfound⟩ := Option.bind_eq_some_iff.1 hfound
    obtain ⟨others, hothers, hfound⟩ := Option.bind_eq_some_iff.1 hfound
    cases hfound
    exact List.forall_mem_append.2
      ⟨holds_containers depth v (D.whole hv) hfirst,
        holds_itemContainers depth rest hrest hothers⟩

theorem holds_entryContainers (depth : Nat) : ∀ (es : List (String × Value))
    {found : List Value}, (∀ e ∈ es, D.Part e.2) → entryContainers depth es = some found →
      ∀ w ∈ found, D.Holds false w
  | [], _, _, hfound => by
    cases hfound
    simp
  | (_, v) :: rest, _, h, hfound => by
    obtain ⟨hv, hrest⟩ := List.forall_mem_cons.1 h
    obtain ⟨first, hfirst, hfound⟩ := Option.bind_eq_some_iff.1 hfound
    obtain ⟨others, hothers, hfound⟩ := Option.bind_eq_some_iff.1 hfound
    cases hfound
    exact List.forall_mem_append.2
      ⟨holds_containers depth v (D.whole hv) hfirst,
        holds_entryContainers depth rest hrest hothers⟩

end

mutual

theorem part_of_descendants (depth : Nat) : ∀ (v : Value) {found : List Value},
    D.Holds false v → descendants depth v = some found → ∀ w ∈ found, D.Part w
  | ⟨kind, m⟩, found, h, hfound => by
    unfold descendants at hfound
    split at hfound
    · cases hfound
    · split at hfound
      · next items =>
        have hitems : ∀ w ∈ items, D.Part w := h.items rfl
        exact part_of_itemDescendants (depth + 1) items hitems hfound
      · next entries =>
        have hentries : ∀ e ∈ entries, D.Part e.2 := h.entries rfl
        exact part_of_entryDescendants (depth + 1) entries hentries hfound
      · cases hfound
        simp

theorem part_of_itemDescendants (depth : Nat) : ∀ (vs : List Value) {found : List Value},
    (∀ v ∈ vs, D.Part v) → itemDescendants depth vs = some found → ∀ w ∈ found, D.Part w
  | [], _, _, hfound => by
    cases hfound
    simp
  | v :: rest, _, h, hfound => by
    obtain ⟨hv, hrest⟩ := List.forall_mem_cons.1 h
    obtain ⟨below, hbelow, hfound⟩ := Option.bind_eq_some_iff.1 hfound
    obtain ⟨others, hothers, hfound⟩ := Option.bind_eq_some_iff.1 hfound
    cases hfound
    refine List.forall_mem_cons.2 ⟨hv, List.forall_mem_append.2 ⟨?_, ?_⟩⟩
    · exact part_of_descendants depth v (D.whole hv) hbelow
    · exact part_of_itemDescendants depth rest hrest hothers

theorem part_of_entryDescendants (depth : Nat) : ∀ (es : List (String × Value))
    {found : List Value}, (∀ e ∈ es, D.Part e.2) →
      entryDescendants depth es = some found → ∀ w ∈ found, D.Part w
  | [], _, _, hfound => by
    cases hfound
    simp
  | (_, v) :: rest, _, h, hfound => by
    obtain ⟨hv, hrest⟩ := List.forall_mem_cons.1 h
    obtain ⟨below, hbelow, hfound⟩ := Option.bind_eq_some_iff.1 hfound
    obtain ⟨others, hothers, hfound⟩ := Option.bind_eq_some_iff.1 hfound
    cases hfound
    refine List.forall_mem_cons.2 ⟨hv, List.forall_mem_append.2 ⟨?_, ?_⟩⟩
    · exact part_of_descendants depth v (D.whole hv) hbelow
    · exact part_of_entryDescendants depth rest hrest hothers

end

theorem holds_recursive {found : Option (List Value)}
    (h : ∀ vs, found = some vs → ∀ v ∈ vs, D.Part v) : D.Holds false (recursive base found) := by
  unfold recursive
  split
  · exact holds_derived (D.array.2 (h _ rfl))
  · exact holds_failed _

theorem holds_recursiveKey (h : D.Holds false base) (name : String) :
    D.Holds false (recursiveKey base name) := by
  unfold recursiveKey
  split
  · exact h
  · refine holds_recursive fun vs hvs v hv => ?_
    obtain ⟨inside, hinside, rfl⟩ := Option.map_eq_some_iff.1 hvs
    obtain ⟨w, hw, hv⟩ := List.mem_filterMap.1 hv
    obtain ⟨entries, hentries, hv⟩ := Option.bind_eq_some_iff.1 hv
    have hholds : D.Holds false w := holds_containers 0 base h hinside w hw
    exact of_lookup (hholds.asObject hentries) hv

theorem holds_recursiveIndex (h : D.Holds false base) (i : Int) :
    D.Holds false (recursiveIndex base i) := by
  unfold recursiveIndex
  split
  · exact h
  · refine holds_recursive fun vs hvs v hv => ?_
    obtain ⟨inside, hinside, rfl⟩ := Option.map_eq_some_iff.1 hvs
    obtain ⟨w, hw, hv⟩ := List.mem_filterMap.1 hv
    obtain ⟨items, hitems, hv⟩ := Option.bind_eq_some_iff.1 hv
    have hholds : D.Holds false w := holds_containers 0 base h hinside w hw
    exact part_of_element (hholds.asArray hitems) hv

theorem holds_recursiveWildcard (h : D.Holds false base) :
    D.Holds false (recursiveWildcard base) := by
  unfold recursiveWildcard
  split
  · exact h
  · exact holds_recursive fun vs hvs => part_of_descendants 0 base h hvs

/-! ### Steps with an inner expression -/

/-- An inner expression that keeps the discipline. -/
def Inner.Upholds (D : Discipline) (inner : Inner) : Prop :=
  ∀ part position, D.Holds false part → D.Holds false position →
    (inner part position).Gives (D.Holds false)

/-- A part of a base as an inner expression sees it, where `K` is what is kept of it. -/
structure Part.Upholds {α : Type} (D : Discipline) (K : α → Prop) (p : Part α) : Prop where
  kept : K p.kept
  part : D.Holds false p.part
  position : D.Holds false p.position

theorem upholds_elementParts {items : List Value} (h : ∀ v ∈ items, D.Part v) :
    ∀ p ∈ elementParts items, p.Upholds D D.Part := by
  intro p hp
  obtain ⟨i, hi, rfl⟩ := List.mem_mapIdx.1 hp
  have hv : D.Part items[i] := h items[i] (List.getElem_mem hi)
  exact ⟨hv, D.whole hv, holds_number _⟩

theorem upholds_entryParts {entries : List (String × Value)} (h : ∀ e ∈ entries, D.Part e.2) :
    ∀ p ∈ entryParts entries, p.Upholds D fun e => D.Part e.2 := by
  intro p hp
  obtain ⟨e, he, rfl⟩ := List.mem_map.1 hp
  exact ⟨h e he, D.whole (h e he), holds_text _⟩

theorem holds_of_verdict {result e : Value} (h : D.Holds false result)
    (he : verdict result = .error e) : D.Holds false e := by
  unfold verdict at he
  split at he
  · cases he
    exact h
  · split at he
    · cases he
    · cases he
      simp

variable {inner : Inner} (hinner : inner.Upholds D)

include hinner

theorem holds_keepWhere {α : Type} {K : α → Prop} (m : Metadata) {parts : List (Part α)}
    (hparts : ∀ p ∈ parts, p.Upholds D K) :
    (keepWhere inner m parts).Gives (Ends (D.Holds false) fun r => ∀ a ∈ r.1, K a) := by
  induction parts generalizing m with
  | nil => exact fun _ hmem => nomatch hmem
  | cons p rest ih =>
    obtain ⟨hp, hrest⟩ := List.forall_mem_cons.1 hparts
    refine (hinner p.part p.position hp.part hp.position).bind fun result hresult => ?_
    split
    · next e he => exact holds_mergeMetadata.2 (holds_of_verdict hresult he)
    · next keep _ =>
      refine (ih (m.merge result.metadata) hrest).bind fun r hr => ?_
      split
      · next e => exact hr
      · next kept m' =>
        have hkept : ∀ a ∈ kept, K a := hr
        change ∀ a ∈ if keep then p.kept :: kept else kept, K a
        split
        · exact List.forall_mem_cons.2 ⟨hp.kept, hkept⟩
        · exact hkept

theorem holds_condition {base : Value} (h : D.Holds false base) :
    (condition base inner).Gives (D.Holds false) := by
  unfold condition
  split
  · exact h
  · split
    · next items hkind =>
      have hparts := upholds_elementParts (h.items hkind)
      refine (holds_keepWhere hinner base.metadata hparts).bind fun r hr => ?_
      split
      · exact holds_withMetadata.2 (D.array.2 hr)
      · exact hr
    · next entries hkind =>
      have hparts := upholds_entryParts (h.entries hkind)
      refine (holds_keepWhere hinner base.metadata hparts).bind fun r hr => ?_
      split
      · exact holds_withMetadata.2 (D.object.2 hr)
      · exact hr
    · refine (hinner base undefined h holds_undefined).bind fun result hresult => ?_
      split
      · exact holds_mergeMetadata.2 h
      · exact holds_withMetadata.2 holds_undefined
      · next he => exact holds_mergeMetadata.2 (holds_of_verdict hresult he)

/-- A template's results are kept unless they are Undefined, and none of them is an error. -/
theorem holds_mapParts {α : Type} {K : α → Prop} {parts : List (Part α)}
    (hparts : ∀ p ∈ parts, p.Upholds D K) :
    (mapParts inner parts).Gives (Ends (D.Holds false) fun vs => ∀ v ∈ vs, D.Part v) := by
  induction parts with
  | nil => exact fun _ hmem => nomatch hmem
  | cons p rest ih =>
    obtain ⟨hp, hrest⟩ := List.forall_mem_cons.1 hparts
    refine (hinner p.part p.position hp.part hp.position).bind fun v hv => ?_
    split
    · exact hv
    · next herror =>
      refine (ih hrest).bind fun r hr => ?_
      split
      · exact hr
      · next vs =>
        have hvs : ∀ v ∈ vs, D.Part v := hr
        change ∀ w ∈ if v.isUndefined then vs else v :: vs, D.Part w
        split
        · exact hvs
        · next hundefined =>
          have hpart : D.Part v := D.part hv (by simpa using herror) (by simpa using hundefined)
          exact List.forall_mem_cons.2 ⟨hpart, hvs⟩

theorem holds_subtemplate {base : Value} (h : D.Holds false base) :
    (subtemplate base inner).Gives (D.Holds false) := by
  unfold subtemplate
  split
  · exact h
  · split
    · next items hkind =>
      have hparts := upholds_elementParts (h.items hkind)
      refine (holds_mapParts hinner hparts).bind fun r hr => ?_
      split
      · exact holds_derived (D.array.2 hr)
      · exact holds_mergeMetadata.2 hr
    · exact (hinner base undefined h holds_undefined).bind fun v hv => holds_derived hv

end Selection

end PolicyExpr
