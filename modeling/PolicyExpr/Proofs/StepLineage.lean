import PolicyExpr.Proofs.Filtering
import PolicyExpr.Proofs.Traversal

/-!
# Lineage through templates and selectors

Unlike a condition step, a subtemplate step and an expression step do not carry the lineage of
everything they look at. A template that is applied to the elements of an array leaves its lineage
with the elements that it makes: the new array has the lineage of the base and nothing else, and an
error that ends the step has its own lineage and that of the base. A selector that is no error leaves
no trace at all. So the results of these steps can be computed from a secret without being secret.
-/
namespace PolicyExpr

namespace Selection

open Value

/-! ## What is derived from a base -/

theorem derived_eq (r base : Value) : derived r base = ⟨r.kind, mergedMetadata [base, r]⟩ := by
  have lineage : mergedMetadata [base, r] = base.metadata.merge r.metadata := mergedMetadata_cons _ _
  rw [lineage, Metadata.merge_comm]
  rfl

/-! ## Templates -/

section Templates

variable {α : Type} {template : Inner} {parts ahead behind : List (Part α)} {base : Value}
  {results : List Value}

/-- None of these results is an error. -/
def NoError (results : List Value) : Prop := ∀ r ∈ results, r.isError = false

/-- The results that a template leaves in the array that it makes. -/
def defined (results : List Value) : List Value := results.filter fun r => !r.isUndefined

/-- The outcome of a template over the parts of an array. If no result is an error, they make the
new array, apart from those that are Undefined, and each of them stays as it is. Its lineage is that
of the base. The first error is the outcome, with its own lineage and that of the base. A template
that aborts makes the step abort. -/
structure IsMapping (template : Inner) (base : Value) (parts : List (Part α))
    (outcome : Eval Value) : Prop where
  mapped : ∀ results, Results template parts results → NoError results →
    outcome = .ok ⟨.array (defined results), base.metadata⟩
  failed : ∀ ahead p behind results r, parts = ahead ++ p :: behind →
    Results template ahead results → NoError results →
    template p.part p.position = .ok r → r.isError = true →
    outcome = .ok ⟨r.kind, mergedMetadata [base, r]⟩
  aborted : ∀ ahead p behind results fault, parts = ahead ++ p :: behind →
    Results template ahead results → NoError results →
    template p.part p.position = .error fault → outcome = .error fault

/-- What a subtemplate step makes of the outcome over the elements of an array. -/
def assembled (base : Value) : Except Value (List Value) → Value
  | .ok vs => derived (array vs) base
  | .error e => derived e base

theorem subtemplate_array {items : List Value} (hkind : base.kind = .array items) :
    subtemplate base template =
      do return assembled base (← mapParts template (elementParts items)) := by
  have looks : passesThrough base = false := looks_of_kind hkind (by simp [Kind.type])
  unfold subtemplate
  rw [if_neg (by simp [looks]), hkind]
  exact bind_congr fun out => by cases out <;> rfl

theorem subtemplate_other (looks : passesThrough base = false)
    (hkind : ∀ items, base.kind ≠ .array items) :
    subtemplate base template = do return derived (← template base undefined) base := by
  unfold subtemplate
  rw [if_neg (by simp [looks])]
  cases h : base.kind with
  | array items => exact absurd h (hkind items)
  | _ => rfl

/-- The results of the first parts are gathered, and the template goes on with the others. -/
theorem mapParts_append (h : Results template ahead results) (hok : NoError results) :
    mapParts template (ahead ++ behind) =
      (mapParts template behind).map (Except.map (defined results ++ ·)) := by
  induction h with
  | nil =>
    simp only [List.nil_append, defined, List.filter_nil]
    rcases mapParts template behind with fault | (e | vs) <;> rfl
  | @cons p r ahead results hp _ ih =>
    have here : r.isError = false := hok r (by simp)
    have rest := ih fun s hs => hok s (by simp [hs])
    rw [List.cons_append, mapParts, hp, ok_bind, if_neg (by simp [here]), rest]
    rcases mapParts template behind with fault | (e | vs)
    · rfl
    · rfl
    · cases hundefined : r.isUndefined <;>
        simp [defined, hundefined, Except.map, pure, Except.pure, bind, Except.bind]

theorem isMapping_of_mapParts (template : Inner) (base : Value) (parts : List (Part α)) :
    IsMapping template base parts (do return assembled base (← mapParts template parts)) where
  mapped results h hok := by
    have run : mapParts template (parts ++ []) = _ := mapParts_append h hok
    rw [List.append_nil] at run
    rw [run, ← derived_ofKind]
    simp [mapParts, Except.map, assembled, array, pure, Except.pure]
  failed ahead p behind results r hparts h hok hr herror := by
    rw [hparts, mapParts_append h hok, mapParts, hr, ok_bind, if_pos herror, ← derived_eq]
    rfl
  aborted ahead p behind results fault hparts h hok hfault := by
    rw [hparts, mapParts_append h hok, mapParts, hfault]
    rfl

/-- Whatever the results of a template are, the step has the lineage of its base unless it fails. -/
theorem IsMapping.metadata_eq {outcome : Eval Value} (h : IsMapping template base parts outcome)
    {v : Value} (hv : outcome = .ok v) (hok : v.isError = false) : v.metadata = base.metadata := by
  rcases results_cases template parts fun r => r.isError = false with
    ⟨results, hresults, hall⟩ | ⟨ahead, p, behind, results, hparts, hresults, hall, hp⟩
  · have mapped := h.mapped results hresults hall
    rw [hv] at mapped
    cases mapped
    rfl
  · cases hr : template p.part p.position with
    | error fault =>
      have aborted := h.aborted ahead p behind results fault hparts hresults hall hr
      rw [hv] at aborted
      cases aborted
    | ok r =>
      have herror : r.isError = true := by simpa using hp r hr
      have failed := h.failed ahead p behind results r hparts hresults hall hr herror
      rw [hv] at failed
      cases failed
      exact absurd (herror.symm.trans hok) (by simp)

/-- What lineage a subtemplate step has on a base that it looks at. On an array the template is
evaluated with `@` as each element and `#` as its index, and with all other bindings of the context.
The new array has the lineage of the base alone, whatever was secret in the context. Every other base
is `@` of a single evaluation, whose lineage is kept. -/
theorem subtemplate_lineage (ctx : Context) (c : Compiled) (base : Value)
    (looks : passesThrough base = false) :
    let template : Inner := fun part position =>
      c.evaluate { ctx with relative := some part, position := some position }
    (∀ items, base.kind = .array items →
      IsMapping template base (elementParts items) (subtemplate base template) ∧
      ∀ v, subtemplate base template = .ok v → v.isError = false → v.metadata = base.metadata) ∧
    ((∀ items, base.kind ≠ .array items) →
      (∀ r, template base .undefined = .ok r →
        subtemplate base template = .ok ⟨r.kind, mergedMetadata [base, r]⟩) ∧
      ∀ fault, template base .undefined = .error fault →
        subtemplate base template = .error fault) := by
  intro template
  constructor
  · intro items hkind
    have mapping : IsMapping template base (elementParts items) (subtemplate base template) := by
      rw [subtemplate_array hkind]
      exact isMapping_of_mapParts template base (elementParts items)
    exact ⟨mapping, fun v hv hok => mapping.metadata_eq hv hok⟩
  · intro hkind
    rw [subtemplate_other looks hkind]
    constructor
    · intro r hr
      rw [hr, ok_bind, derived_eq]
      rfl
    · intro fault hfault
      rw [hfault]
      rfl

/-- `:: @ > limit` with a secret limit of 2. On 1 the result is secret, on the array of 1 and 3 it is
not, and on an array with a text it is a secret error. -/
theorem subtemplate_lineage_limited :
    let limit : Expression := .basic .unknown (.identifier "limit") [] none
    let e : Expression := .comparison .greater .unknown (.basic .unknown .relative [] none) limit
    let ctx : Context :=
      { Context.empty with bindings := .ofList [("limit", (Value.ofNat 2).asSecret)] }
    ∃ c, e.compile .empty = .ok c ∧
      let template : Inner := fun part position =>
        c.evaluate { ctx with relative := some part, position := some position }
      subtemplate (.ofNat 1) template = .ok ⟨.boolean false, .hidden⟩ ∧
      subtemplate (.array [.ofNat 1, .ofNat 3]) template =
        .ok (.array [⟨.boolean false, .hidden⟩, ⟨.boolean true, .hidden⟩]) ∧
      subtemplate (.array [.ofNat 3, .text "x"]) template =
        .ok ⟨.error (.comparisonOperand .text) (some .unknown), .hidden⟩ := by
  intro limit e ctx
  refine ⟨_, rfl, ?_⟩
  intro template
  have yes : template (.ofNat 3) (.ofNat 0) = .ok ⟨.boolean true, .hidden⟩ := rfl
  have booleans : ∀ b : Bool, (⟨.boolean b, .hidden⟩ : Value).isError = false := fun _ => rfl
  refine ⟨?_, ?_, ?_⟩
  · exact ((subtemplate_lineage ctx _ (.ofNat 1) (by decide)).2 (fun _ h => by cases h)).1
      ⟨.boolean false, .hidden⟩ rfl
  · refine ((subtemplate_lineage ctx _ (.array [.ofNat 1, .ofNat 3]) (by decide)).1 _ rfl).1.mapped
      [⟨.boolean false, .hidden⟩, ⟨.boolean true, .hidden⟩] (.cons rfl (.cons rfl .nil)) ?_
    simp [NoError, booleans]
  · refine ((subtemplate_lineage ctx _ (.array [.ofNat 3, .text "x"]) (by decide)).1 _ rfl).1.failed
      [_] _ [] [⟨.boolean true, .hidden⟩] _ rfl (.cons yes .nil) ?_ rfl rfl
    simp [NoError, booleans]

/-- `[1] :: subject.a` with a secret subject without such a key. The result for 1 is a secret
Undefined, which is dropped; that the array is empty tells something of the subject, and yet it is
not secret. -/
theorem secret_result_lost :
    let field : Expression := .basic .unknown (.identifier "subject") [.key "a"] none
    let one : Expression := .basic .unknown (.literal (.number "1")) [] none
    let e : Expression := .basic .unknown (.literal (.array [one])) [] (some field)
    let ctx : Context := { Context.empty with subject := (Value.object []).asSecret }
    ∃ c template r v, e.compile .empty = .ok c ∧ field.compile .empty = .ok template ∧
      template.evaluate (ctx.withRelative (.ofNat 1) (.ofNat 0)) = .ok r ∧ r.isSecret = true ∧
      c.evaluate ctx = .ok v ∧ v.isSecret = false :=
  ⟨_, _, _, _, rfl, rfl, rfl, rfl, rfl, rfl⟩

end Templates

/-! ## Selectors -/

/-- The part of a base that a selector picks. -/
def selected? (base s : Value) : Option Value :=
  match s.kind with
  | .number n => n.toInt64?.bind (element? · base)
  | .text name => field? name base
  | _ => none

/-- The result of a step that picks one part of its base: the part with its lineage and that of the
base, or Undefined or an error with the lineage of the base. -/
def Picks (base : Value) (part? : Option Value) (result : Value) : Prop :=
  match part? with
  | some v => result = ⟨v.kind, mergedMetadata [base, v]⟩
  | none => result.metadata = base.metadata ∧ (result.isUndefined = true ∨ result.isError = true)

theorem picks_undefined (base : Value) : Picks base none (derived undefined base) := by
  unfold Value.undefined
  rw [derived_ofKind]
  exact ⟨rfl, .inl rfl⟩

theorem picks_failed (f : Failure) (base : Value) : Picks base none (failed f base) := by
  unfold failed Value.failure
  rw [derived_ofKind]
  exact ⟨rfl, .inr rfl⟩

variable {base : Value}

theorem picks_key (looks : passesThrough base = false) (name : String) :
    Picks base (field? name base) (key base name) := by
  unfold key field? asObject?
  rw [if_neg (by simp [looks])]
  cases base.kind with
  | object entries =>
    dsimp only [Option.bind_some]
    cases lookup name entries with
    | some v => exact derived_eq v base
    | none => exact picks_undefined base
  | _ => exact picks_failed _ base

theorem picks_index (looks : passesThrough base = false) (i : Int) :
    Picks base (element? i base) (index base i) := by
  unfold index element? asArray?
  rw [if_neg (by simp [looks])]
  cases base.kind with
  | array items =>
    dsimp only [Option.bind_some]
    rw [← position?_bind]
    cases (position? i items.length).bind (items[·]?) with
    | some v => exact derived_eq v base
    | none => exact picks_failed _ base
  | _ => exact picks_failed _ base

theorem picks_selector (looks : passesThrough base = false) {s : Value} (hok : s.isError = false) :
    Picks base (selected? base s) (selector base s) := by
  unfold selector selected?
  rw [if_neg (by simp [looks]), if_neg (by simp [hok])]
  cases s.kind with
  | number n =>
    dsimp only
    cases n.toInt64? with
    | some i => exact picks_index looks i
    | none => exact picks_failed _ base
  | text name => exact picks_key looks name
  | _ => exact picks_failed _ base

theorem selector_withMetadata {s : Value} (hok : s.isError = false) (m : Metadata) :
    selector base (s.withMetadata m) = selector base s := by
  have relabelled : (s.withMetadata m).isError = false := hok
  unfold selector
  simp only [hok, relabelled, Bool.false_eq_true, if_false]
  rfl

/-- What lineage an expression step has on a base that it looks at. An error of the selector keeps
its own. Every other selector decides what is picked, but the result has only the lineage of the base
and of the part, and is the same whatever the lineage of the selector is. -/
theorem selector_lineage (base s : Value) (looks : passesThrough base = false) :
    (s.isError = true → selector base s = ⟨s.kind, mergedMetadata [base, s]⟩) ∧
    (s.isError = false → Picks base (selected? base s) (selector base s) ∧
      ∀ m, selector base (s.withMetadata m) = selector base s) := by
  constructor
  · intro herror
    unfold selector
    rw [if_neg (by simp [looks]), if_pos herror, ← derived_eq]
    rfl
  · intro hok
    exact ⟨picks_selector looks hok, selector_withMetadata hok⟩

/-- On `{"a": 1}` the secret text "a" picks 1, a secret "b" picks nothing, and neither result is
secret. A secret error stays secret. -/
theorem selector_lineage_object :
    let base : Value := .object [("a", .ofNat 1)]
    selector base (Value.text "a").asSecret = .ofNat 1 ∧
      (selector base (Value.text "b").asSecret).metadata = .empty ∧
      selector base (failure .nesting).asSecret = ⟨.error .nesting none, .hidden⟩ := by
  intro base
  have law := fun s => selector_lineage base s (by decide)
  refine ⟨?_, ?_, ?_⟩
  · exact ((law (Value.text "a").asSecret).2 (by decide)).1
  · exact ((law (Value.text "b").asSecret).2 (by decide)).1.1
  · exact (law (failure .nesting).asSecret).1 (by decide)

/-- `resource[(subject)]` with the resource `{"a": 1}` and the secret subject "a" is 1, which is not
secret. -/
theorem secret_selector_lost :
    let subject : Expression := .basic .unknown (.identifier "subject") [] none
    let e : Expression := .basic .unknown (.identifier "resource") [.selector subject] none
    let ctx : Context := { Context.empty with
      resource := .object [("a", .ofNat 1)]
      subject := (Value.text "a").asSecret }
    ∃ c, e.compile .empty = .ok c ∧ c.evaluate ctx = .ok (.ofNat 1) ∧ ctx.subject.isSecret = true ∧
      (Value.ofNat 1).isSecret = false :=
  ⟨_, rfl, rfl, rfl, rfl⟩

end Selection

end PolicyExpr
