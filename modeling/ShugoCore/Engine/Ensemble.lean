import ShugoCore.Engine.Proposals
import ShugoCore.Lib.Run

/-!
# The ensemble

The structured path of `make_decision` of `decision_engine.py`: every model is asked in turn, the
best executable proposal is the decision, and without one a rule decides in the end.

The answer of a model is parsed outside of the `try` that guards the call of the model.  So what
`_parse_proposal` raises ends the loop, with the answers of the other models
(`ensemble_unsilenced_iff`).

A failing proposer is not asked for a time that doubles with its failures, up to ten minutes. The
doubling comes before the cap, and is an integer that is made a float. From the 1027th failure on
that raises, in this cycle and in every one that follows (`backoff_defined_iff`).

The memory context and the verdict of the personality layer, which are added to a decision in the end
and change nothing in it, are left out.
-/

namespace ShugoCore

namespace Engine

open Py Machine

/-! ## The models -/

/-- A letter or a digit of the ASCII alphabet. -/
def isAlphanumeric (c : CodePoint) : Bool :=
  (48 ≤ c.val && c.val ≤ 57) || (65 ≤ c.val && c.val ≤ 90) || (97 ≤ c.val && c.val ≤ 122)

/-- `validate_model_name`.  The `$` of the pattern also stands before a line feed at the end. -/
def validateModelName (name : Str) : Bool :=
  match if name.getLast? = some newline then name.dropLast else name with
  | [] => false
  | c :: rest =>
      isAlphanumeric c && rest.length ≤ 63 &&
        rest.all fun c => isAlphanumeric c || c ∈ lit "._:/-"

/-- A selected model, and what comes of asking it. -/
structure Model where
  modelId : Str
  /-- `float(model.get("weight", 0.0))`. -/
  weight : PyFloat ℚ
  /-- `get_model_performance(model_id)`. -/
  performance : PyFloat ℚ
  /-- What `get_model_output` returns, if it does not raise. -/
  answer : Option Str

/-- An element of `proposals`. -/
structure Entry (φ : Type) where
  modelId : Str
  proposal : ParsedProposal φ
  score : PyFloat ℚ

/-- The variables of the loop over the models. -/
structure Asking (φ : Type) where
  modelOutputs : Dict Str Str
  proposals : List (Entry φ)
  asked : Nat
  answered : Nat

section

variable {φ : Type}

/-- The variables after a model that added an entry or none. -/
def added (a : Asking φ) (m : Model) (e : Option (Entry φ)) : Asking φ :=
  if validateModelName m.modelId = false then { a with proposals := a.proposals ++ e.toList }
  else
    { modelOutputs := a.modelOutputs.set m.modelId (m.answer.getD [])
      proposals := a.proposals ++ e.toList
      asked := a.asked + 1
      answered := a.answered + if m.answer.isSome then 1 else 0 }

@[simp] theorem added_proposals (a : Asking φ) (m : Model) (e : Option (Entry φ)) :
    (added a m e).proposals = a.proposals ++ e.toList := by
  rw [added]
  split <;> rfl

variable [Builtins φ] [FloatReader] (py : Interpreter) (features : Features)

/-- The body of the loop over the models. -/
def askModel (a : Asking φ) (m : Model) : Except Raised (Asking φ) :=
  if validateModelName m.modelId = false then return a
  else do
    let output := m.answer.getD []
    let a := { a with
      asked := a.asked + 1
      answered := a.answered + if m.answer.isSome then 1 else 0
      modelOutputs := a.modelOutputs.set m.modelId output }
    match ← parseProposal py features output with
    | some p =>
      return { a with proposals := a.proposals ++ [⟨m.modelId, p, m.weight.mul m.performance⟩] }
    | none => return a

/-- The loop over the models. -/
def askModels (models : List Model) : Except Raised (Asking φ) :=
  models.foldlM (askModel py features)
    { modelOutputs := [], proposals := [], asked := 0, answered := 0 }

/-! ## Decisions -/

/-- The parameters of a rule. -/
structure RuleParams where
  text : Str
  reason : Str
  failures : Nat
  retryInSecs : Option (PyFloat ℚ)

/-- The parameters of a decision. -/
inductive DecisionParams (φ : Type) where
  | empty
  | proposed (params : Obj φ)
  | rule (params : RuleParams)

/-- A decision. -/
structure EnsembleDecision (φ : Type) where
  actionType : PyVal φ
  params : DecisionParams φ
  confidence : PyFloat ℚ
  proposalSource : Option Str
  reason : Option Str
  decisionId : Option Str
  modelOutputs : Dict Str Str
  aggregatedOutput : PyFloat ℚ

/-- The fields of the engine that the structured path reads and writes. -/
structure Ensemble where
  modelFailures : Nat
  backendFailures : Nat
  proposerReadyAt : PyFloat ℚ
  decisionSeq : Nat

/-- A call of `make_decision`: its two readings of the monotonic clock, and the selected models. -/
structure Cycle where
  now : Seconds
  later : Seconds
  models : List Model

namespace Ensemble

/-- `__init__`. -/
def init : Ensemble where
  modelFailures := 0
  backendFailures := 0
  proposerReadyAt := .finite 0
  decisionSeq := 0

/-- `entry[1].get("action_type") is not None`. -/
def isExecutable (e : Entry φ) : Bool :=
  match e.proposal.actionType with
  | .none => false
  | _ => true

/-- `entry[1].get("confidence", 0.0) * entry[2]`. -/
def weighed (e : Entry φ) : PyFloat ℚ := .mul (.finite e.proposal.confidence) e.score

/-- `executable.sort(key=…, reverse=True)`, and the first one. -/
def leading (executable : List (Entry φ)) : Option (Entry φ) :=
  (executable.insertionSort fun e e' => PyFloat.le (weighed e') (weighed e) = true).head?

/-- `sum(score for _, _, score in proposals)`. -/
def aggregated (proposals : List (Entry φ)) : PyFloat ℚ :=
  proposals.foldl (fun total e => total.add e.score) (.finite 0)

/-- A decision of a rule. -/
def ruleFallback (a : Asking φ) (params : RuleParams) : EnsembleDecision φ where
  actionType := .str (lit "record_observation")
  params := .rule params
  confidence := .nearest (1 / 10)
  proposalSource := some (lit "rule_fallback")
  reason := none
  decisionId := none
  modelOutputs := a.modelOutputs
  aggregatedOutput := aggregated a.proposals

/-- A decision without an action. -/
def noAction (a : Asking φ) (proposalSource reason : Option Str) : EnsembleDecision φ where
  actionType := .none
  params := .empty
  confidence := .finite 0
  proposalSource
  reason
  decisionId := none
  modelOutputs := a.modelOutputs
  aggregatedOutput := aggregated a.proposals

/-- `min(PROPOSAL_BACKOFF_BASE_SECS * (2 ** (failures - 3)), PROPOSAL_BACKOFF_MAX_SECS)`. -/
def backoffDelay (failures : Nat) : Except Exn (PyFloat ℚ) :=
  (PyFloat.ofInt (2 ^ (failures - 3))).map fun power => .min (.mul (.finite 30) power) (.finite 600)

/-- A time from a clock reading on. -/
def ahead (now : Seconds) : PyFloat ℚ → PyFloat ℚ
  | .finite delay => .finite (now + delay)
  | x => x

/-- `round(at - now, 1)`. -/
def untilSecs (now : Seconds) : PyFloat ℚ → PyFloat ℚ
  | .finite time => .finite (roundHalfEven (10 * (time - now)) / 10)
  | x => x

/-- `now < self._proposer_ready_at`. -/
def backingOff (s : Ensemble) (c : Cycle) : Bool := PyFloat.lt (.finite c.now) s.proposerReadyAt

/-- The branch of a cycle that asked models and was answered by none. -/
def unreachable (s : Ensemble) (a : Asking φ) : EnsembleDecision φ × Ensemble :=
  let failures := s.backendFailures + 1
  (if 3 ≤ failures then
      ruleFallback a
        ⟨lit "routine observation (backend unavailable)", lit "backend_unavailable", failures, none⟩
    else noAction a none (some (lit "backend_unavailable")),
    { s with backendFailures := failures })

/-- The branch of a cycle without a usable proposal. -/
def failing (s : Ensemble) (c : Cycle) (a : Asking φ) :
    Except Raised (EnsembleDecision φ) × Ensemble :=
  let failures := s.modelFailures + 1
  let s := { s with modelFailures := failures }
  if 3 ≤ failures then
    match backoffDelay failures with
    | .error e => (.error (.ofExn e), s)
    | .ok delay =>
        (.ok (ruleFallback a
            ⟨lit "routine observation (rule-based fallback)", lit "model_fallback", failures, none⟩),
          { s with proposerReadyAt := ahead c.later delay })
  else (.ok (noAction a (if a.proposals = [] then none else some (lit "null_proposal")) none), s)

/-- `make_decision` of a task that is no conversation. -/
def makeDecision (s : Ensemble) (c : Cycle) : Except Raised (EnsembleDecision φ) × Ensemble :=
  match askModels (φ := φ) py features (if s.backingOff c then [] else c.models) with
  | .error e => (.error e, s)
  | .ok a =>
      match leading (a.proposals.filter isExecutable) with
      | some best =>
          (.ok
            { actionType := best.proposal.actionType
              params := .proposed best.proposal.params
              confidence := .finite best.proposal.confidence
              proposalSource := some best.modelId
              reason := none
              decisionId := some (lit "dec-" ++ (Literal.ofInt s.decisionSeq).text)
              modelOutputs := a.modelOutputs
              aggregatedOutput := aggregated a.proposals },
            { modelFailures := 0
              backendFailures := 0
              proposerReadyAt := .finite 0
              decisionSeq := s.decisionSeq + 1 })
      | none =>
          if s.backingOff c then
            (.ok (ruleFallback a
                ⟨lit "routine observation (proposer backoff)", lit "proposer_backoff",
                  s.modelFailures, some (untilSecs c.now s.proposerReadyAt)⟩), s)
          else if a.asked ≠ 0 ∧ a.answered = 0 then (.ok (s.unreachable a).1, (s.unreachable a).2)
          else s.failing c a

end Ensemble

/-! ## One output and the others -/

/-- What a model adds to the proposals. -/
def entryOf (m : Model) : Except Raised (Option (Entry φ)) :=
  if validateModelName m.modelId = false then return none
  else do
    let p ← parseProposal py features (m.answer.getD [])
    return p.map fun p => ⟨m.modelId, p, m.weight.mul m.performance⟩

/-- No output raises, and each leaves the proposals of the other models alone. -/
def Unsilenced (φ : Type) [Builtins φ] (py : Interpreter) (features : Features)
    (models : List Model) : Prop :=
  ∃ a : Asking φ, askModels py features models = .ok a ∧
    ∀ before m after, models = before ++ m :: after →
      ∃ x own y b : Asking φ, askModels py features before = .ok x ∧
        askModels py features [m] = .ok own ∧ askModels py features after = .ok y ∧
        askModels py features (before ++ { m with answer := none } :: after) = .ok b ∧
        a.proposals = x.proposals ++ own.proposals ++ y.proposals ∧
        b.proposals = x.proposals ++ y.proposals

/-- No candidate in the answer of a model that is asked raises, of those that are reached. -/
def Harmless (φ : Type) [Builtins φ] (py : Interpreter) (features : Features) (m : Model) : Prop :=
  validateModelName m.modelId = true → ∀ text ∈ m.answer, strip text ≠ [] →
    NoneRaises φ py features false (reached φ py features (candidates (φ := φ) py text))

variable {py features}

/-- What a model adds does not depend on what was there. -/
theorem askModel_eq (a : Asking φ) (m : Model) :
    askModel py features a m = (entryOf py features m).map (added a m) := by
  rw [askModel, entryOf]
  split
  · rename_i hinvalid
    simp [added, hinvalid, Except.map, pure, Except.pure]
  · rename_i hvalid
    dsimp only
    cases parseProposal (φ := φ) py features (m.answer.getD []) with
    | error e => rfl
    | ok p => cases p <;> simp [added, hvalid, Except.map, pure, Except.pure, bind, Except.bind]

theorem entryOf_ok_iff (m : Model) :
    (∃ e, entryOf (φ := φ) py features m = .ok e) ↔ Harmless φ py features m := by
  have hparse : (∃ r, parseProposal (φ := φ) py features (m.answer.getD []) = .ok r) ↔ _ :=
    parseProposal_ok_iff _
  rw [entryOf, Harmless]
  rcases Bool.eq_false_or_eq_true (validateModelName m.modelId) with hvalid | hvalid
  · simp only [hvalid, Bool.true_eq_false, if_false, forall_const]
    have hentry : (∃ e, (do
        let p ← parseProposal (φ := φ) py features (m.answer.getD [])
        return p.map fun p => (⟨m.modelId, p, m.weight.mul m.performance⟩ : Entry φ) :
          Except Raised (Option (Entry φ))) = .ok e) ↔
        ∃ r, parseProposal (φ := φ) py features (m.answer.getD []) = .ok r := by
      cases parseProposal (φ := φ) py features (m.answer.getD []) with
      | error e => exact ⟨(by rintro ⟨_, ⟨⟩⟩), (by rintro ⟨_, ⟨⟩⟩)⟩
      | ok r => exact ⟨fun _ => ⟨r, rfl⟩, fun _ => ⟨_, rfl⟩⟩
    rw [hentry, hparse]
    cases m.answer with
    | none => simp [strip]
    | some text => simp
  · simp only [hvalid, if_true, Bool.false_eq_true, false_implies, iff_true]
    exact ⟨none, rfl⟩

/-- What a model adds, if it raises nothing. -/
def gives (φ : Type) [Builtins φ] (py : Interpreter) (features : Features) (m : Model) :
    Option (Entry φ) :=
  match entryOf py features m with
  | .ok e => e
  | .error _ => none

/-- The loop goes through exactly the models that raise nothing, and each of them adds its entry. -/
theorem askFrom_ok_iff (models : List Model) (a : Asking φ) :
    (∃ b, models.foldlM (askModel py features) a = .ok b) ↔
      ∀ m ∈ models, Harmless φ py features m := by
  induction models generalizing a with
  | nil => exact ⟨(fun _ m hm => by cases hm), fun _ => ⟨a, rfl⟩⟩
  | cons m models ih =>
      rw [List.foldlM_cons, askModel_eq, List.forall_mem_cons, ← entryOf_ok_iff]
      cases entryOf (φ := φ) py features m with
      | error e => exact ⟨(by rintro ⟨_, ⟨⟩⟩), (by rintro ⟨⟨_, ⟨⟩⟩, _⟩)⟩
      | ok e => exact (ih (added a m e)).trans ⟨fun h => ⟨⟨e, rfl⟩, h⟩, And.right⟩

theorem gives_of_entryOf {m : Model} {e : Option (Entry φ)}
    (h : entryOf (φ := φ) py features m = .ok e) : gives φ py features m = e := by
  rw [gives, h]

theorem askFrom_proposals {models : List Model} {a b : Asking φ}
    (h : models.foldlM (askModel py features) a = .ok b) :
    b.proposals = a.proposals ++ models.filterMap (gives φ py features) := by
  induction models generalizing a with
  | nil =>
      cases h
      exact (List.append_nil _).symm
  | cons m models ih =>
      rw [List.foldlM_cons, askModel_eq] at h
      cases hentry : entryOf (φ := φ) py features m with
      | error e =>
          rw [hentry] at h
          cases h
      | ok e =>
          rw [hentry] at h
          have hrest := ih (a := added a m e) h
          rw [hrest, added_proposals, List.append_assoc, List.filterMap_cons, gives_of_entryOf hentry]
          cases e <;> rfl

theorem askModels_ok {models : List Model} (h : ∀ m ∈ models, Harmless φ py features m) :
    ∃ a : Asking φ, askModels py features models = .ok a ∧
      a.proposals = models.filterMap (gives φ py features) := by
  obtain ⟨a, ha⟩ := (askFrom_ok_iff models _).2 h
  exact ⟨a, ha, askFrom_proposals ha⟩

/-- For every list of models and answers, no output raises and each leaves the proposals of the
others alone, if and only if no candidate raises that is reached in an answer. -/
theorem ensemble_unsilenced_iff (py : Interpreter) (features : Features) (models : List Model) :
    Unsilenced φ py features models ↔ ∀ m ∈ models, Harmless φ py features m := by
  constructor
  · rintro ⟨a, ha, -⟩
    exact (askFrom_ok_iff models _).1 ⟨a, ha⟩
  · intro h
    obtain ⟨a, ha, hproposals⟩ := askModels_ok h
    refine ⟨a, ha, ?_⟩
    rintro before m after rfl
    have hbefore : ∀ m' ∈ before, Harmless φ py features m' := fun m' hm' =>
      h m' (List.mem_append_left _ hm')
    have hafter : ∀ m' ∈ after, Harmless φ py features m' := fun m' hm' =>
      h m' (List.mem_append_right _ (List.mem_cons_of_mem m hm'))
    have hown : ∀ m' ∈ [m], Harmless φ py features m' := fun m' hm' =>
      h m' (List.mem_append_right _ (List.mem_singleton.1 hm' ▸ List.mem_cons_self))
    have hsilent : Harmless φ py features { m with answer := none } :=
      fun _ text htext => by cases htext
    obtain ⟨x, hx, hxp⟩ := askModels_ok hbefore
    obtain ⟨y, hy, hyp⟩ := askModels_ok hafter
    obtain ⟨own, hown, hownp⟩ := askModels_ok hown
    have hwithout : ∀ m' ∈ before ++ { m with answer := none } :: after, Harmless φ py features m' :=
      List.forall_mem_append.2 ⟨hbefore, List.forall_mem_cons.2 ⟨hsilent, hafter⟩⟩
    obtain ⟨b, hb, hbp⟩ := askModels_ok hwithout
    have hgives : gives φ py features { m with answer := none } = none := by
      have hentry : entryOf (φ := φ) py features { m with answer := none } = .ok none := by
        rw [entryOf]
        split <;> rfl
      exact gives_of_entryOf hentry
    refine ⟨x, own, y, b, hx, hown, hy, hb, ?_, ?_⟩
    · rw [hproposals, hxp, hownp, hyp, List.append_assoc, ← List.filterMap_append,
        ← List.filterMap_append]
      rfl
    · rw [hbp, hxp, hyp, List.filterMap_append, List.filterMap_cons_none hgives]

end

/-! ## A list for a type -/

/-- The object of an action whose type is no text. -/
def listAction : Obj WholeFloat := obj [("action_type", .list [])]

/-- A model that answers with it, and one that would greet. -/
def duet : List Model :=
  [⟨lit "a", .finite 1, .finite 1, some (dumpsPlain (.dict listAction))⟩,
    ⟨lit "b", .finite 1, .finite 1, some (dumpsPlain (.dict greeting))⟩]

/-- There are proposals. -/
def proposesSome {φ : Type} : Except Raised (Asking φ) → Bool
  | .ok a => !a.proposals.isEmpty
  | .error _ => false

theorem ok_of_proposesSome {φ : Type} {r : Except Raised (Asking φ)} (h : proposesSome r = true) :
    ∃ a, r = .ok a ∧ a.proposals ≠ [] := by
  cases r with
  | error e => cases h
  | ok a =>
      refine ⟨a, rfl, fun hnil => ?_⟩
      rw [proposesSome, hnil] at h
      cases h

/-- It raised. -/
def raises {φ : Type} : Except Raised (Asking φ) → Bool
  | .ok _ => false
  | .error _ => true

section

local instance emptyFloatText : FloatReader := noFloatText

/-- The list is looked up in a set, and the greeting of the other model is lost. -/
theorem list_silences_duet : ¬ Unsilenced WholeFloat ⟨fun _ => false⟩ ⟨true, true, true, true⟩ duet ∧
    ∃ a : Asking WholeFloat, askModels ⟨fun _ => false⟩ ⟨true, true, true, true⟩ duet.tail = .ok a ∧
      a.proposals ≠ [] := by
  have hraises : raises (φ := WholeFloat)
    (askModels ⟨fun _ => false⟩ ⟨true, true, true, true⟩ duet) = true := by decide +kernel
  have hgreets : proposesSome (φ := WholeFloat)
    (askModels ⟨fun _ => false⟩ ⟨true, true, true, true⟩ duet.tail) = true := by decide +kernel
  refine ⟨?_, ok_of_proposesSome hgreets⟩
  rintro ⟨a, ha, -⟩
  rw [ha] at hraises
  cases hraises

end

/-! ## The wait of a failing proposer -/

namespace Ensemble

section

variable {φ : Type} [Builtins φ] [FloatReader] {py : Interpreter} {features : Features}

/-- The cycle asks the models or has none to ask, it gets no executable proposal, and not because no
model was reached. -/
def Fails (φ : Type) [Builtins φ] (py : Interpreter) (features : Features) (s : Ensemble)
    (c : Cycle) : Prop :=
  s.backingOff c = false ∧ ∃ a : Asking φ, askModels py features c.models = .ok a ∧
    leading (a.proposals.filter isExecutable) = none ∧ ¬ (a.asked ≠ 0 ∧ a.answered = 0)

/-- The rule decides, and the models are asked again in half a minute, doubled for each failure from
the fourth on, and in ten minutes at most. -/
def BacksOff (φ : Type) [Builtins φ] (py : Interpreter) (features : Features) (s : Ensemble)
    (c : Cycle) (n : Nat) : Prop :=
  ∃ d : EnsembleDecision φ, (makeDecision py features s c).1 = .ok d ∧
    d.actionType = .str (lit "record_observation") ∧ d.proposalSource = some (lit "rule_fallback") ∧
    (makeDecision (φ := φ) py features s c).2.proposerReadyAt =
      .finite (c.later + min (30 * 2 ^ (n - 3)) 600)

/-- The cycle ends with an executable proposal. -/
def Executes (φ : Type) [Builtins φ] (py : Interpreter) (features : Features) (s : Ensemble)
    (c : Cycle) :
    Prop :=
  ∃ a : Asking φ, askModels py features (if s.backingOff c then [] else c.models) = .ok a ∧
    leading (a.proposals.filter isExecutable) ≠ none

/-- The states that an engine reaches, with the failing cycles since the last executable proposal. -/
inductive Streak (φ : Type) [Builtins φ] (py : Interpreter) (features : Features) :
    Ensemble → Nat → Prop where
  | init : Streak φ py features init 0
  | fails {s : Ensemble} {n : Nat} (c : Cycle) (h : Streak φ py features s n)
      (hc : Fails φ py features s c) :
      Streak φ py features (makeDecision (φ := φ) py features s c).2 (n + 1)
  | executes {s : Ensemble} {n : Nat} (c : Cycle) (h : Streak φ py features s n)
      (hc : Executes φ py features s c) :
        Streak φ py features (makeDecision (φ := φ) py features s c).2 0
  | others {s : Ensemble} {n : Nat} (c : Cycle) (h : Streak φ py features s n)
      (hf : ¬ Fails φ py features s c) (he : ¬ Executes φ py features s c) :
      Streak φ py features (makeDecision (φ := φ) py features s c).2 n

theorem makeDecision_fails {s : Ensemble} {c : Cycle} (h : Fails φ py features s c) :
    ∃ a : Asking φ, makeDecision py features s c = s.failing c a := by
  obtain ⟨hready, a, ha, hleading, hreached⟩ := h
  refine ⟨a, ?_⟩
  simp only [makeDecision, hready, Bool.false_eq_true, if_false, ha, hleading, hreached]

omit [Builtins φ] [FloatReader] in
@[simp] theorem failing_modelFailures (s : Ensemble) (c : Cycle) (a : Asking φ) :
    (s.failing c a).2.modelFailures = s.modelFailures + 1 := by
  simp only [failing]
  split
  · split <;> rfl
  · rfl

/-- The engine counts its failing cycles. -/
theorem Streak.count {s : Ensemble} {n : Nat} (h : Streak φ py features s n) :
    s.modelFailures = n := by
  induction h with
  | init => rfl
  | fails c h hc ih =>
      obtain ⟨a, ha⟩ := makeDecision_fails hc
      rw [ha, failing_modelFailures, ih]
  | executes c h hc ih =>
      obtain ⟨a, ha, hbest⟩ := hc
      obtain ⟨best, hbest⟩ := Option.ne_none_iff_exists'.1 hbest
      simp only [makeDecision, ha, hbest]
  | @others s n c h hf he ih =>
      rw [makeDecision]
      cases ha : askModels (φ := φ) py features (if s.backingOff c then [] else c.models) with
      | error e => exact ih
      | ok a =>
          cases hbest : leading (a.proposals.filter isExecutable) with
          | some best => exact absurd ⟨a, ha, by simp [hbest]⟩ he
          | none =>
              simp only [hbest]
              rcases Bool.eq_false_or_eq_true (s.backingOff c) with hready | hready
              · simp only [hready, if_true]
                exact ih
              · rw [hready, if_neg Bool.false_ne_true] at ha
                by_cases hreached : a.asked ≠ 0 ∧ a.answered = 0
                · simp only [hready, Bool.false_eq_true, if_false, if_pos hreached]
                  exact ih
                · exact absurd ⟨hready, a, ha, hbest, hreached⟩ hf

omit [FloatReader] in
/-- A wait is capped where its float is infinite. -/
theorem min_mul_thirty (k : Nat) :
    PyFloat.min (.mul (.finite 30) (.finite (2 ^ k))) (.finite 600) =
      .finite (min (30 * 2 ^ k) 600) := by
  have hnearest := PyFloat.nearest_natCast (m := 30) (by decide) (by decide) k
  have hcast : ((30 * 2 ^ k : Nat) : ℚ) = 30 * 2 ^ k := by push_cast; rfl
  rw [hcast] at hnearest
  rw [PyFloat.mul, hnearest]
  split
  · rename_i hlarge
    have hcap : ∀ e, 10 ≤ e → 2 ^ e ≤ 30 * 2 ^ k → 600 ≤ 30 * 2 ^ k := fun e he hle =>
      (show 600 ≤ 2 ^ 10 by decide).trans ((Nat.pow_le_pow_right two_pos he).trans hle)
    have hmin : min (30 * 2 ^ k : ℚ) 600 = 600 :=
      min_eq_right (by exact_mod_cast hcap _ (by decide) hlarge)
    rw [hmin]
    rfl
  · exact PyFloat.min_finite _ _

omit [FloatReader] in
/-- Up to the last power of two that is a float, the wait is what it is to be. -/
theorem backoffDelay_eq (n : Nat) : backoffDelay n =
    if n - 3 < 1024 then .ok (.finite (min (30 * 2 ^ (n - 3)) 600)) else .error .overflowError := by
  rw [backoffDelay, PyFloat.ofInt_two_pow]
  split
  · rw [Except.map, min_mul_thirty]
  · rfl

/-- A failing cycle backs off if and only if the doubling is a float. -/
theorem backsOff_iff {s : Ensemble} {c : Cycle} (h : Fails φ py features s c)
    (hn : 3 ≤ s.modelFailures + 1) :
    BacksOff φ py features s c (s.modelFailures + 1) ↔ s.modelFailures + 1 ≤ 1026 := by
  obtain ⟨a, ha⟩ := makeDecision_fails h
  rw [BacksOff, ha, failing]
  simp only [if_pos hn, backoffDelay_eq]
  by_cases hfloat : s.modelFailures + 1 - 3 < 1024
  · have hle : s.modelFailures + 1 ≤ 1026 := by omega
    simp only [if_pos hfloat, hle, iff_true]
    exact ⟨_, rfl, rfl, rfl, rfl⟩
  · have hgt : ¬ s.modelFailures + 1 ≤ 1026 := by omega
    simp only [if_neg hfloat, hgt, iff_false]
    rintro ⟨d, hd, -⟩
    cases hd

/-- Past it, a failing cycle raises. -/
theorem failing_overflows {s : Ensemble} {c : Cycle} (h : Fails φ py features s c)
    (hn : 1027 ≤ s.modelFailures + 1) :
    (makeDecision (φ := φ) py features s c).1 = .error (.ofExn .overflowError) := by
  obtain ⟨a, ha⟩ := makeDecision_fails h
  have hfloat : ¬ s.modelFailures + 1 - 3 < 1024 := by omega
  have hthree : 3 ≤ s.modelFailures + 1 := by omega
  rw [ha, failing]
  simp only [if_pos hthree, backoffDelay_eq, if_neg hfloat]

/-- For every number `n ≥ 3` of failing cycles in a row, the cycle backs off if and only if `n` is
at most 1026. From the next one on, it raises. -/
theorem backoff_defined_iff {s : Ensemble} {c : Cycle} {n : Nat} (hstreak : Streak φ py features s n)
    (hfails : Fails φ py features s c) (hn : 3 ≤ n + 1) :
    BacksOff φ py features s c (n + 1) ↔ n + 1 ≤ 1026 := by
  obtain rfl := hstreak.count
  exact backsOff_iff hfails hn

/-! ## A proposer that says nothing -/

/-- A cycle at a quarter of an hour past the one before, with a model that answers with an empty
text. -/
def silentCycle (k : Nat) : Cycle where
  now := 900 * k
  later := 900 * k
  models := [⟨lit "m", .finite 1, .finite 1, some []⟩]

theorem fails_silentCycle {s : Ensemble} {k : Nat} {r : ℚ} (hready : s.proposerReadyAt = .finite r)
    (hr : r ≤ 900 * k) : Fails φ py features s (silentCycle k) := by
  have hlate : s.backingOff (silentCycle k) = false := by
    rw [backingOff, hready]
    exact decide_eq_false (not_lt.2 hr)
  exact ⟨hlate, ⟨[(lit "m", [])], [], 1, 1⟩, rfl, rfl, fun h => Nat.one_ne_zero h.2⟩

omit [Builtins φ] [FloatReader] in
/-- A failing cycle waits for ten minutes at most. -/
theorem failing_readyAt_le {s : Ensemble} {c : Cycle} {r : ℚ}
    (hready : s.proposerReadyAt = .finite r) (hr : r ≤ c.later) (a : Asking φ) :
    ∃ r', (s.failing c a).2.proposerReadyAt = .finite r' ∧ r' ≤ c.later + 600 := by
  rw [failing]
  dsimp only
  have hkept : r ≤ c.later + 600 := le_add_of_le_of_nonneg hr (by norm_num)
  split
  · rw [backoffDelay_eq]
    split
    · rename_i _ delay hdelay
      split at hdelay
      · cases hdelay
      · exact ⟨r, hready, hkept⟩
    · rename_i _ delay hdelay
      split at hdelay
      · cases hdelay
        exact ⟨_, rfl, add_le_add_right (min_le_right _ _) _⟩
      · cases hdelay
  · exact ⟨r, hready, hkept⟩

/-- A streak of any length is reached, and the models can be asked once more. -/
theorem streak_silent (φ : Type) [Builtins φ] (py : Interpreter) (features : Features) (n : Nat) :
    ∃ s : Ensemble, Streak φ py features s n ∧ Fails φ py features s (silentCycle n) := by
  suffices h : ∃ (s : Ensemble) (r : ℚ), Streak φ py features s n ∧ s.proposerReadyAt = .finite r ∧
      r ≤ 900 * n by
    obtain ⟨s, r, hs, hready, hr⟩ := h
    exact ⟨s, hs, fails_silentCycle hready hr⟩
  induction n with
  | zero => exact ⟨init, 0, .init, rfl, by simp⟩
  | succ n ih =>
      obtain ⟨s, r, hs, hready, hr⟩ := ih
      have hfails : Fails φ py features s (silentCycle n) := fails_silentCycle hready hr
      obtain ⟨a, ha⟩ := makeDecision_fails hfails
      obtain ⟨r', hready', hr'⟩ := failing_readyAt_le (c := silentCycle n) hready hr a
      refine ⟨_, r', hs.fails _ hfails, by rw [ha, hready'], hr'.trans ?_⟩
      push_cast
      rw [silentCycle]
      linarith

end

section

local instance blankFloatText : FloatReader := noFloatText

/-- The third empty answer in a row makes the engine wait. -/
theorem backoff_third :
    ∃ s : Ensemble, BacksOff WholeFloat ⟨fun _ => false⟩ ⟨false, false, false, false⟩ s
    (silentCycle 2) 3 := by
  obtain ⟨s, hs, hfails⟩ := streak_silent WholeFloat ⟨fun _ => false⟩ ⟨false, false, false, false⟩ 2
  exact ⟨s, (backoff_defined_iff hs hfails (by decide)).2 (by decide)⟩

/-- The 1027th empty answer in a row raises. -/
theorem backoff_overflows :
    ∃ s : Ensemble, Streak WholeFloat ⟨fun _ => false⟩ ⟨false, false, false, false⟩ s 1026 ∧
    Fails WholeFloat ⟨fun _ => false⟩ ⟨false, false, false, false⟩ s (silentCycle 1026) ∧
    (makeDecision (φ := WholeFloat) ⟨fun _ => false⟩ ⟨false, false, false, false⟩ s
      (silentCycle 1026)).1 =
      .error (.ofExn .overflowError) ∧
    ¬ BacksOff WholeFloat ⟨fun _ => false⟩ ⟨false, false, false, false⟩ s
      (silentCycle 1026) 1027 := by
  obtain ⟨s, hs, hfails⟩ :=
    streak_silent WholeFloat ⟨fun _ => false⟩ ⟨false, false, false, false⟩ 1026
  have hraises := failing_overflows hfails (by rw [hs.count])
  exact ⟨s, hs, hfails, hraises, (by rintro ⟨_, hd, _⟩; cases hraises.symm.trans hd)⟩

end

end Ensemble

end Engine

end ShugoCore
