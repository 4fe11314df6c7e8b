import ShugoCore.Interaction.Bus
import ShugoCore.Mesh.Framing
import ShugoCore.Security.RateLimiter
import ShugoCore.Server.Routes

/-!
# Requests to the server

`_dispatch` of `shugocore_server.py`, with the checks and the records of `ShugoCoreServer`.  Every
request has a thread.  It is admitted, which takes a token of its client and compares its bearer
token, it is served by a handler, and it is recorded and answered; the threads go on in any order.
What the handlers do to the engine is a parameter here, and of the answers the status is kept: no
status depends on the counters, although the pages of the activity and of the status show them.

A request without the bearer token does not reach a handler, so the engine is as it would be without
it, and the status of its answer does not depend on its path.  It does take tokens of its client.
-/

namespace ShugoCore

open Py Machine

/-- A request, with its path normalized. -/
structure Request (β : Type) where
  method : Method
  path : Str
  /-- The address of the client. -/
  client : Str
  token : Option Str
  body : β

/-- What the handlers do to the engine, and the status that they answer with, unless they raise. -/
abbrev Handlers (ε β : Type) := Endpoint → β → ε → Option Nat × ε

/-- The counters of a bucket. -/
structure RouteStats where
  requests : Nat
  ok : Nat
  clientError : Nat
  serverError : Nat
deriving DecidableEq, Repr

/-- Where the thread of a request is. -/
inductive RequestPoint where
  | waiting | serving
  | recording (status : Nat)
  | answered (status : Nat)
  /-- The thread has raised, and the connection is closed. -/
  | dropped
deriving DecidableEq, Repr

/-- `ACTIVITY_LATENCY_RING`. -/
def activityLatencyRing : Nat := 100

/-- `ACTIVITY_RPM_CAP`. -/
def activityRpmCap : Nat := 2000

/-- `ShugoCoreServer`, with the threads of the requests and the answers in the order in which they
were recorded. -/
structure Server (ε : Type) where
  engine : ε
  limiter : Option RateLimiter
  stats : Dict String RouteStats
  latency : Dict String (List Seconds)
  rpm : List (Seconds × String)
  point : Nat → RequestPoint
  answers : List (Nat × Nat)

/-- What the comparison of the bearer token comes to. -/
inductive Authorization where
  | accepted | refused
  /-- `compare_digest` takes no text that is not ASCII. -/
  | raises
deriving DecidableEq, Repr

/-- `authorize`. -/
def authorize (authToken token : Option Str) : Authorization :=
  match authToken with
  | none | some [] => .accepted
  | some expected =>
      match token with
      | none => .refused
      | some token =>
          if token = [] then .refused
          else
            match compareDigest token expected with
            | .ok true => .accepted
            | .ok false => .refused
            | .error _ => .raises

/-- A request that may reach a handler. -/
def Trusted {β : Type} (authToken : Option Str) (r : Request β) : Prop :=
  r.path = lit "/health" ∨ authorize authToken r.token = .accepted

instance {β : Type} (authToken : Option Str) (r : Request β) : Decidable (Trusted authToken r) :=
  inferInstanceAs (Decidable (_ ∨ _))

/-- `record`, without the readings. -/
def RouteStats.count (stats : RouteStats) (status : Nat) : RouteStats where
  requests := stats.requests + 1
  ok := if status < 400 then stats.ok + 1 else stats.ok
  clientError := if 400 ≤ status ∧ status < 500 then stats.clientError + 1 else stats.clientError
  serverError := if 500 ≤ status then stats.serverError + 1 else stats.serverError

/-- The bucket of a request. -/
def Request.bucket {β : Type} (r : Request β) : String :=
  (Routes.routeName r.method r.path).getD "other"

namespace Server

variable {ε β : Type}

/-- `__init__`. -/
def new (engine : ε) (limiter : Option RateLimiter) : Server ε :=
  ⟨engine, limiter, [], [], [], fun _ => .waiting, []⟩

/-- What a thread does next, with its readings of the clock. -/
inductive Action where
  | check (thread : Nat) (created now : Seconds)
  | serve (thread : Nat)
  /-- The record has a latency if the request got past the checks. -/
  | record (thread : Nat) (now : Seconds) (latency : Option Seconds)

def goTo (s : Server ε) (t : Nat) (point : RequestPoint) : Server ε :=
  { s with point := Function.update s.point t point }

/-- `allow_request`: one attempt, since the deadline is over at once. -/
def allowRequest (limiter : Option RateLimiter) (client : Str) (created now : Seconds) :
    Bool × Option RateLimiter :=
  match limiter with
  | none => (true, none)
  | some l =>
      match l.attempt client created now with
      | .ok l' => (true, some l')
      | .error _ => (false, some l)

/-- The point that a request comes to when it is allowed. -/
def authorized (authToken token : Option Str) : RequestPoint :=
  match authorize authToken token with
  | .accepted => .serving
  | .refused => .recording 401
  | .raises => .dropped

/-- The checks of `_dispatch`. -/
def check (authToken : Option Str) (r : Request β) (s : Server ε) (t : Nat) (created now : Seconds) :
    Server ε :=
  if r.path = lit "/health" then s.goTo t .serving
  else
    let (allowed, limiter) := allowRequest s.limiter r.client created now
    { s with limiter := limiter }.goTo t
      (if allowed then authorized authToken r.token else .recording 429)

/-- The handler of `_dispatch`. -/
def serve (handlers : Handlers ε β) (r : Request β) (s : Server ε) (t : Nat) : Server ε :=
  match Routes.endpoint r.method r.path with
  | none => s.goTo t (.recording 404)
  | some e =>
      match handlers e r.body s.engine with
      | (some status, engine) => { s with engine := engine }.goTo t (.recording status)
      | (none, engine) => { s with engine := engine }.goTo t .dropped

/-- `record`, and the answer, in one step. -/
def record (r : Request β) (s : Server ε) (t status : Nat) (now : Seconds)
    (latency : Option Seconds) : Server ε :=
  let name := r.bucket
  let stats := (Dict.get? s.stats name).getD ⟨0, 0, 0, 0⟩
  { s with
    stats := Dict.set s.stats name (stats.count status)
    latency := match latency with
      | some ms =>
          Dict.set s.latency name
            (pushBounded activityLatencyRing ((Dict.get? s.latency name).getD []) ms)
      | none => s.latency
    rpm := pushBounded activityRpmCap s.rpm (now, name)
    answers := s.answers ++ [(t, status)] }.goTo t (.answered status)

/-- One step of the system. -/
def step (authToken : Option Str) (handlers : Handlers ε β) (req : Nat → Request β) (s : Server ε) :
    Action → Server ε
  | .check t created now =>
      match s.point t with
      | .waiting => s.check authToken (req t) t created now
      | _ => s
  | .serve t =>
      match s.point t with
      | .serving => s.serve handlers (req t) t
      | _ => s
  | .record t now latency =>
      match s.point t with
      | .recording status => s.record (req t) t status now latency
      | _ => s

/-- The thread of an action. -/
def Action.thread : Action → Nat
  | .check t _ _ | .serve t | .record t _ _ => t

/-! ## What a step does -/

variable {authToken : Option Str} {handlers : Handlers ε β} {req : Nat → Request β} {s : Server ε}

@[simp] theorem goTo_point_self (s : Server ε) (t : Nat) (point : RequestPoint) :
    (s.goTo t point).point t = point := Function.update_self ..

theorem goTo_point_of_ne (s : Server ε) {t t' : Nat} (h : t' ≠ t) (point : RequestPoint) :
    (s.goTo t point).point t' = s.point t' := Function.update_of_ne h ..

@[simp] theorem goTo_engine (s : Server ε) (t : Nat) (point : RequestPoint) :
    (s.goTo t point).engine = s.engine := rfl

@[simp] theorem goTo_limiter (s : Server ε) (t : Nat) (point : RequestPoint) :
    (s.goTo t point).limiter = s.limiter := rfl

/-- A thread has no part in where the others are. -/
theorem point_step_of_ne {a : Action} {t : Nat} (h : t ≠ a.thread) :
    (s.step authToken handlers req a).point t = s.point t := by
  cases a with
  | check t' created now =>
      simp only [step]
      split
      · simp only [check]
        split <;> exact goTo_point_of_ne _ h _
      · rfl
  | serve t' =>
      simp only [step]
      split
      · simp only [serve]
        split
        · exact goTo_point_of_ne _ h _
        · split <;> exact goTo_point_of_ne _ h _
      · rfl
  | record t' now latency =>
      simp only [step]
      split
      · exact goTo_point_of_ne _ h _
      · rfl

theorem authorized_eq_serving_iff {token : Option Str} :
    authorized authToken token = .serving ↔ authorize authToken token = .accepted := by
  unfold authorized
  cases authorize authToken token <;> simp

/-- Only requests that may reach a handler are served. -/
def ServesTrusted (authToken : Option Str) (req : Nat → Request β) (s : Server ε) : Prop :=
  ∀ t, s.point t = .serving → Trusted authToken (req t)

theorem ServesTrusted.step (h : s.ServesTrusted authToken req) (a : Action) :
    (s.step authToken handlers req a).ServesTrusted authToken req := by
  intro t ht
  by_cases hne : t = a.thread
  · subst hne
    cases a with
    | check t created now =>
        simp only [Action.thread, Server.step] at ht ⊢
        split at ht
        · simp only [check] at ht
          split at ht
          · rename_i hhealth
            exact .inl hhealth
          · rw [goTo_point_self] at ht
            split at ht
            · exact .inr (authorized_eq_serving_iff.1 ht)
            · cases ht
        · exact h t ht
    | serve t =>
        simp only [Action.thread, Server.step] at ht ⊢
        split at ht
        · rename_i hs
          exact h t hs
        · exact h t ht
    | record t now latency =>
        simp only [Action.thread, Server.step] at ht ⊢
        split at ht
        · simp only [record, goTo_point_self] at ht
          cases ht
        · exact h t ht
  · rw [point_step_of_ne hne] at ht
    exact h t ht

/-! ## Requests without the bearer token -/

/-- Limiters that treat these clients alike. -/
def LimitAlike (clients : Str → Prop) : Option RateLimiter → Option RateLimiter → Prop
  | none, none => True
  | some l, some l' =>
      l.rate = l'.rate ∧ l.capacity = l'.capacity ∧
        ∀ c, clients c → Dict.get? l.buckets c = Dict.get? l'.buckets c
  | none, some _ | some _, none => False

variable {clients : Str → Prop} {l l' : Option RateLimiter}

theorem LimitAlike.refl (clients : Str → Prop) (l : Option RateLimiter) : LimitAlike clients l l := by
  cases l with
  | none => trivial
  | some l => exact ⟨rfl, rfl, fun _ _ => rfl⟩

theorem allowRequest_of_ok {l₁ l₂ : RateLimiter} {client : Str} {created now : Seconds}
    (h : l₁.attempt client created now = .ok l₂) :
    allowRequest (some l₁) client created now = (true, some l₂) := by
  show (match l₁.attempt client created now with
    | .ok l' => (true, some l')
    | .error _ => (false, some l₁)) = _
  rw [h]

theorem allowRequest_of_error {l₁ : RateLimiter} {client : Str} {created now waitNeeded : Seconds}
    (h : l₁.attempt client created now = .error waitNeeded) :
    allowRequest (some l₁) client created now = (false, some l₁) := by
  show (match l₁.attempt client created now with
    | .ok l' => (true, some l')
    | .error _ => (false, some l₁)) = _
  rw [h]

/-- A client of them gets the same answer from both. -/
theorem LimitAlike.allow (h : LimitAlike clients l l') {client : Str} (hc : clients client)
    (created now : Seconds) :
    (allowRequest l client created now).1 = (allowRequest l' client created now).1 ∧
      LimitAlike clients (allowRequest l client created now).2
        (allowRequest l' client created now).2 := by
  cases l with
  | none =>
      cases l' with
      | none => exact ⟨rfl, trivial⟩
      | some l' => exact h.elim
  | some l =>
      cases l' with
      | none => exact h.elim
      | some l' =>
          obtain ⟨hrate, hcapacity, hbuckets⟩ := h
          rcases RateLimiter.attempt_congr hrate hcapacity (hbuckets client hc) created now with
            ⟨wait, he, he'⟩ | ⟨bucket, he, he'⟩
          · rw [allowRequest_of_error he, allowRequest_of_error he']
            exact ⟨rfl, hrate, hcapacity, hbuckets⟩
          · rw [allowRequest_of_ok he, allowRequest_of_ok he']
            refine ⟨rfl, hrate, hcapacity, fun c hcc => ?_⟩
            by_cases hne : client = c
            · subst hne
              rw [Dict.get?_set_self, Dict.get?_set_self]
            · rw [Dict.get?_set_of_ne _ hne, Dict.get?_set_of_ne _ hne]
              exact hbuckets c hcc

/-- Another client leaves them alike. -/
theorem LimitAlike.allow_other (h : LimitAlike clients l l') {client : Str} (hc : ¬ clients client)
    (created now : Seconds) :
    LimitAlike clients (allowRequest l client created now).2 l' := by
  cases l with
  | none => exact h
  | some l =>
      cases l' with
      | none => exact h.elim
      | some l' =>
          obtain ⟨hrate, hcapacity, hbuckets⟩ := h
          rcases @RateLimiter.attempt_congr l l client rfl rfl rfl created now with
            ⟨wait, he, -⟩ | ⟨bucket, he, -⟩
          · rw [allowRequest_of_error he]
            exact ⟨hrate, hcapacity, hbuckets⟩
          · rw [allowRequest_of_ok he]
            refine ⟨hrate, hcapacity, fun c hcc => ?_⟩
            have hne : client ≠ c := fun hcl => hc (hcl ▸ hcc)
            rw [Dict.get?_set_of_ne _ hne]
            exact hbuckets c hcc

/-- What a server shares with one that requests without the bearer token never came to: the engine,
the statuses of the other requests, and what is left for their clients. -/
structure Unmoved (authToken : Option Str) (req : Nat → Request β) (s s' : Server ε) : Prop where
  engine : s.engine = s'.engine
  points : ∀ t, Trusted authToken (req t) → s.point t = s'.point t
  limits : LimitAlike (fun c => ∃ t, Trusted authToken (req t) ∧ (req t).client = c)
    s.limiter s'.limiter
  serves : s.ServesTrusted authToken req

/-- An action of a request that may not reach a handler. -/
def hidden (authToken : Option Str) (req : Nat → Request β) (a : Action) : Bool :=
  !decide (Trusted authToken (req a.thread))

variable {s' : Server ε}

theorem hidden_iff {a : Action} :
    hidden authToken req a = true ↔ ¬ Trusted authToken (req a.thread) := by
  simp [hidden]

theorem Unmoved.hidden (h : Unmoved authToken req s s')
    (hclients : ∀ t t', ¬ Trusted authToken (req t) → Trusted authToken (req t') →
      (req t).client ≠ (req t').client)
    {a : Action} (ha : Server.hidden authToken req a = true) :
    Unmoved authToken req (s.step authToken handlers req a) s' := by
  rw [hidden_iff] at ha
  have hpoints : ∀ t, Trusted authToken (req t) →
      (s.step authToken handlers req a).point t = s'.point t := fun t ht => by
    rw [point_step_of_ne fun he => ha (he ▸ ht)]
    exact h.points t ht
  suffices hsuff : (s.step authToken handlers req a).engine = s.engine ∧
      LimitAlike (fun c => ∃ t, Trusted authToken (req t) ∧ (req t).client = c)
        (s.step authToken handlers req a).limiter s'.limiter from
    ⟨hsuff.1.trans h.engine, hpoints, hsuff.2, h.serves.step a⟩
  cases a with
  | check t created now =>
      simp only [Action.thread] at ha
      have hother : ¬ ∃ t', Trusted authToken (req t') ∧ (req t').client = (req t).client := by
        rintro ⟨t', ht', hc⟩
        exact hclients t t' ha ht' hc.symm
      simp only [step]
      split
      · simp only [check, if_neg fun hhealth => ha (.inl hhealth)]
        exact ⟨rfl, h.limits.allow_other hother created now⟩
      · exact ⟨rfl, h.limits⟩
  | serve t =>
      simp only [step]
      split
      · rename_i hs
        exact absurd (h.serves t hs) ha
      · exact ⟨rfl, h.limits⟩
  | record t now latency =>
      simp only [step]
      split <;> exact ⟨rfl, h.limits⟩

theorem update_points {points points' : Nat → RequestPoint}
    (h : ∀ t, Trusted authToken (req t) → points t = points' t) (t : Nat) (point : RequestPoint)
    (t' : Nat) (ht : Trusted authToken (req t')) :
    Function.update points t point t' = Function.update points' t point t' := by
  by_cases hne : t' = t
  · rw [hne, Function.update_self, Function.update_self]
  · rw [Function.update_of_ne hne, Function.update_of_ne hne]
    exact h t' ht

theorem Unmoved.shown (h : Unmoved authToken req s s') {a : Action}
    (ha : Server.hidden authToken req a = false) :
    Unmoved authToken req (s.step authToken handlers req a) (s'.step authToken handlers req a) := by
  have ht : Trusted authToken (req a.thread) := by
    by_contra hn
    rw [hidden_iff.2 hn] at ha
    cases ha
  suffices hsuff : (s.step authToken handlers req a).engine =
        (s'.step authToken handlers req a).engine ∧
      (∀ t, Trusted authToken (req t) → (s.step authToken handlers req a).point t =
        (s'.step authToken handlers req a).point t) ∧
      LimitAlike (fun c => ∃ t, Trusted authToken (req t) ∧ (req t).client = c)
        (s.step authToken handlers req a).limiter (s'.step authToken handlers req a).limiter from
    ⟨hsuff.1, hsuff.2.1, hsuff.2.2, h.serves.step a⟩
  cases a with
  | check t created now =>
      simp only [Action.thread] at ht
      simp only [step, ← h.points t ht]
      split
      · simp only [check]
        split
        · exact ⟨h.engine, update_points h.points t _, h.limits⟩
        · obtain ⟨hsame, hlimits⟩ := h.limits.allow ⟨t, ht, rfl⟩ created now
          rw [hsame]
          exact ⟨h.engine, update_points h.points t _, hlimits⟩
      · exact ⟨h.engine, h.points, h.limits⟩
  | serve t =>
      simp only [Action.thread] at ht
      simp only [step, ← h.points t ht]
      split
      · simp only [serve]
        split
        · exact ⟨h.engine, update_points h.points t _, h.limits⟩
        · rw [← h.engine]
          split <;> exact ⟨rfl, update_points h.points t _, h.limits⟩
      · exact ⟨h.engine, h.points, h.limits⟩
  | record t now latency =>
      simp only [Action.thread] at ht
      simp only [step, ← h.points t ht]
      split
      · exact ⟨h.engine, update_points h.points t _, h.limits⟩
      · exact ⟨h.engine, h.points, h.limits⟩

/-- Requests that do not have the bearer token, and whose clients send no others, may as well not
come: in every interleaving the engine and the statuses that the other requests are answered with are
as without them. -/
theorem untrusted_leave_no_trace (authToken : Option Str) (handlers : Handlers ε β)
    (req : Nat → Request β) (engine : ε) (limiter : Option RateLimiter)
    (hclients : ∀ t t', ¬ Trusted authToken (req t) → Trusted authToken (req t') →
      (req t).client ≠ (req t').client) (as : List Action) :
    (run (step authToken handlers req) (new engine limiter) as).engine =
        (run (step authToken handlers req) (new engine limiter)
          (as.filter fun a => !hidden authToken req a)).engine ∧
      ∀ t, Trusted authToken (req t) →
        (run (step authToken handlers req) (new engine limiter) as).point t =
          (run (step authToken handlers req) (new engine limiter)
            (as.filter fun a => !hidden authToken req a)).point t := by
  have hstart : Unmoved authToken req (new engine limiter) (new engine limiter) :=
    ⟨rfl, fun _ _ => rfl, .refl _ _, fun t ht => by cases ht⟩
  have hhidden : ∀ s s' a, hidden authToken req a = true → Unmoved authToken req s s' →
      Unmoved authToken req (s.step authToken handlers req a) s' :=
    fun _ _ _ ha h => h.hidden hclients ha
  have hrun := rel_run_filter hhidden (fun _ _ _ ha h => h.shown ha) hstart as
  exact ⟨hrun.engine, hrun.points⟩

theorem untrusted_leave_no_trace_counter :
    let req : Nat → Request Unit := fun t =>
      if t = 0 then ⟨.get, lit "/api/v1/status", lit "10.0.0.7", none, ()⟩
      else ⟨.get, lit "/api/v1/status", lit "10.0.0.2", some (lit "k"), ()⟩
    let handlers : Handlers Nat Unit := fun _ _ calls => (some 200, calls + 1)
    let as := [.check 0 0 1, .check 1 0 1, .record 0 2 none, .serve 0, .serve 1]
    (run (step (some (lit "k")) handlers req) (new 0 (some (.new 60 1))) as).engine =
        (run (step (some (lit "k")) handlers req) (new 0 (some (.new 60 1)))
          (as.filter fun a => !hidden (some (lit "k")) req a)).engine ∧
      ∀ t, Trusted (some (lit "k")) (req t) →
        (run (step (some (lit "k")) handlers req) (new 0 (some (.new 60 1))) as).point t =
          (run (step (some (lit "k")) handlers req) (new 0 (some (.new 60 1)))
            (as.filter fun a => !hidden (some (lit "k")) req a)).point t := by
  intro req handlers as
  refine untrusted_leave_no_trace (some (lit "k")) handlers req 0 (some (.new 60 1)) ?_ as
  have htrusted : Trusted (some (lit "k")) (req 1) := by decide
  intro t t' ht ht'
  have hreq : ∀ n, n ≠ 0 → req n = req 1 := fun n hn => if_neg hn
  by_cases h : t = 0
  · by_cases h' : t' = 0
    · rw [h'] at ht'
      exact absurd ht' (by decide)
    · rw [h, hreq t' h']
      decide
  · rw [hreq t h] at ht
    exact absurd htrusted ht

/-! ## What a path gives away -/

/-- Requests that differ in one thread at most, and there only in what they ask for.  Neither is the
liveness probe. -/
structure Probes (authToken : Option Str) (t : Nat) (req req' : Nat → Request β) : Prop where
  others : ∀ t', t' ≠ t → req t' = req' t'
  client : (req t).client = (req' t).client
  token : (req t).token = (req' t).token
  refused : authorize authToken (req t).token ≠ .accepted
  health : (req t).path ≠ lit "/health" ∧ (req' t).path ≠ lit "/health"

/-- Servers that only differ in their counters. -/
structure SameBut (s s' : Server ε) : Prop where
  engine : s.engine = s'.engine
  limiter : s.limiter = s'.limiter
  point : s.point = s'.point
  answers : s.answers = s'.answers

theorem update_congr {points points' : Nat → RequestPoint} (h : points = points') (t : Nat)
    (point : RequestPoint) : Function.update points t point = Function.update points' t point := by
  rw [h]

theorem SameBut.record (h : SameBut s s') (r r' : Request β) (t status : Nat) (now : Seconds)
    (latency : Option Seconds) :
    SameBut (s.record r t status now latency) (s'.record r' t status now latency) :=
  ⟨h.engine, h.limiter, update_congr h.point t _, congrArg (· ++ [(t, status)]) h.answers⟩

variable {req' : Nat → Request β} {t : Nat}

theorem Probes.untrusted (hp : Probes authToken t req req') : ¬ Trusted authToken (req t) :=
  fun h => h.elim hp.health.1 hp.refused

theorem SameBut.step (h : SameBut s s') (hp : Probes authToken t req req')
    (hs : s.ServesTrusted authToken req) (a : Action) :
    SameBut (s.step authToken handlers req a) (s'.step authToken handlers req' a) := by
  have hsame := h
  obtain ⟨hengine, hlimiter, hpoint, hanswers⟩ := h
  cases a with
  | check t' created now =>
      simp only [Server.step, ← hpoint]
      split
      · by_cases ht : t' = t
        · subst ht
          simp only [check, if_neg hp.health.1, if_neg hp.health.2, ← hlimiter, ← hp.client,
            ← hp.token]
          exact ⟨hengine, rfl, update_congr hpoint t' _, hanswers⟩
        · simp only [check, ← hlimiter, ← hp.others t' ht]
          split
          · exact ⟨hengine, hlimiter, update_congr hpoint t' _, hanswers⟩
          · exact ⟨hengine, rfl, update_congr hpoint t' _, hanswers⟩
      · exact hsame
  | serve t' =>
      simp only [Server.step, ← hpoint]
      split
      · rename_i hserving
        have ht : t' ≠ t := fun ht => hp.untrusted (ht ▸ hs t' hserving)
        simp only [serve, ← hengine, ← hp.others t' ht]
        split
        · exact ⟨hengine, hlimiter, update_congr hpoint t' _, hanswers⟩
        · split <;> exact ⟨rfl, hlimiter, update_congr hpoint t' _, hanswers⟩
      · exact hsame
  | record t' now latency =>
      simp only [Server.step, ← hpoint]
      split
      · exact hsame.record _ _ _ _ _ _
      · exact hsame

/-- A request without the bearer token cannot find out about paths by its status: whatever it asks for,
other than the liveness probe, its status and everybody else's are the same, in every interleaving. -/
theorem no_route_oracle (authToken : Option Str) (handlers : Handlers ε β) (engine : ε)
    (limiter : Option RateLimiter) (hp : Probes authToken t req req') (as : List Action) :
    (run (step authToken handlers req) (new engine limiter) as).point =
        (run (step authToken handlers req') (new engine limiter) as).point ∧
      (run (step authToken handlers req) (new engine limiter) as).answers =
        (run (step authToken handlers req') (new engine limiter) as).answers ∧
      (run (step authToken handlers req) (new engine limiter) as).engine =
        (run (step authToken handlers req') (new engine limiter) as).engine := by
  suffices hrun : ∀ s s' : Server ε, SameBut s s' → s.ServesTrusted authToken req →
      SameBut (run (step authToken handlers req) s as) (run (step authToken handlers req') s' as) by
    have h := hrun (new engine limiter) (new engine limiter) ⟨rfl, rfl, rfl, rfl⟩
      fun t ht => by cases ht
    exact ⟨h.point, h.answers, h.engine⟩
  induction as with
  | nil => exact fun s s' h _ => h
  | cons a as ih => exact fun s s' h hs => ih _ _ (h.step hp hs a) (hs.step a)

theorem no_route_oracle_status :
    let req : Nat → Request Unit := fun _ =>
      ⟨.get, lit "/api/v1/status", lit "10.0.0.7", some (lit "j"), ()⟩
    let req' : Nat → Request Unit :=
      Function.update req 0 ⟨.post, lit "/no/such", lit "10.0.0.7", some (lit "j"), ()⟩
    let handlers : Handlers Nat Unit := fun _ _ calls => (some 200, calls + 1)
    let as := [.check 0 0 1, .record 0 2 none]
    let s := run (step (some (lit "k")) handlers req) (new 0 none) as
    let s' := run (step (some (lit "k")) handlers req') (new 0 none) as
    s.point = s'.point ∧ s.answers = s'.answers ∧ s.engine = s'.engine := by
  intro req req' handlers as s s'
  have hp : Probes (some (lit "k")) 0 req req' :=
    ⟨fun t' ht => (Function.update_of_ne ht _ req).symm, rfl, rfl, by decide, by decide⟩
  exact no_route_oracle (some (lit "k")) handlers 0 none hp as

/-! ## What is counted -/

/-- The answers to the requests of a bucket. -/
def inBucket (req : Nat → Request β) (name : String) (answers : List (Nat × Nat)) :
    List (Nat × Nat) := answers.filter fun a => (req a.1).bucket = name

/-- The counters that go with a list of answers. -/
def statsOf (answers : List (Nat × Nat)) : RouteStats where
  requests := answers.length
  ok := answers.countP fun a => a.2 < 400
  clientError := answers.countP fun a => 400 ≤ a.2 ∧ a.2 < 500
  serverError := answers.countP fun a => 500 ≤ a.2

theorem statsOf_concat (answers : List (Nat × Nat)) (t status : Nat) :
    statsOf (answers ++ [(t, status)]) = (statsOf answers).count status := by
  simp only [statsOf, RouteStats.count, List.length_append, List.length_singleton,
    List.countP_append, List.countP_singleton, decide_eq_true_eq]
  congr 1 <;> split <;> rfl

/-- What the counters and the threads say of the answers. -/
structure Accounted (req : Nat → Request β) (s : Server ε) : Prop where
  stats : ∀ name, (Dict.get? s.stats name).getD ⟨0, 0, 0, 0⟩ = statsOf (inBucket req name s.answers)
  once : (s.answers.map Prod.fst).Nodup
  points : ∀ t status, (t, status) ∈ s.answers ↔ s.point t = .answered status

theorem accounted_new (req : Nat → Request β) (engine : ε) (limiter : Option RateLimiter) :
    (new engine limiter).Accounted req :=
  ⟨fun _ => rfl, List.nodup_nil, fun t status => by simp [new]⟩

/-- A thread that goes on before it is answered. -/
theorem Accounted.moves (h : s.Accounted req) (hstats : s'.stats = s.stats)
    (hanswers : s'.answers = s.answers) {point : RequestPoint}
    (hpoint : s'.point = Function.update s.point t point)
    (hbefore : ∀ status, s.point t ≠ .answered status) (hafter : ∀ status, point ≠ .answered status) :
    s'.Accounted req := by
  refine ⟨by rw [hstats, hanswers]; exact h.stats, by rw [hanswers]; exact h.once, fun t' status => ?_⟩
  rw [hanswers, h.points, hpoint]
  by_cases ht : t' = t
  · subst ht
    rw [Function.update_self]
    exact iff_of_false (hbefore status) (hafter status)
  · rw [Function.update_of_ne ht]

theorem Accounted.record (h : s.Accounted req) {status : Nat} (ht : s.point t = .recording status)
    (now : Seconds) (latency : Option Seconds) :
    (s.record (req t) t status now latency).Accounted req := by
  have hnew : ∀ status', (t, status') ∉ s.answers := fun status' hmem => by
    rw [h.points, ht] at hmem
    cases hmem
  refine ⟨fun name => ?_, ?_, fun t' status' => ?_⟩
  · show (Dict.get? (Dict.set s.stats _ _) name).getD _ = statsOf (inBucket req name (s.answers ++ _))
    rw [inBucket, List.filter_append]
    by_cases hname : (req t).bucket = name
    · subst hname
      rw [Dict.get?_set_self, List.filter_cons_of_pos (by simp), List.filter_nil, statsOf_concat,
        Option.getD_some, h.stats]
      rfl
    · rw [Dict.get?_set_of_ne _ hname, List.filter_cons_of_neg (by simpa using hname),
        List.filter_nil, List.append_nil]
      exact h.stats name
  · show ((s.answers ++ [(t, status)]).map Prod.fst).Nodup
    rw [List.map_append, List.nodup_append]
    refine ⟨h.once, by simp, fun t' ht' t'' ht'' => ?_⟩
    rw [List.map_singleton, List.mem_singleton] at ht''
    obtain ⟨⟨_, status'⟩, hmem, rfl⟩ := List.mem_map.1 ht'
    rintro rfl
    rw [show (t, status).1 = t from rfl] at ht''
    exact hnew status' (ht'' ▸ hmem)
  · show (t', status') ∈ s.answers ++ [(t, status)] ↔
      Function.update s.point t (.answered status) t' = .answered status'
    rw [List.mem_append, List.mem_singleton, Prod.mk.injEq, h.points]
    by_cases he : t' = t
    · subst he
      rw [Function.update_self, ht]
      simp [eq_comm]
    · rw [Function.update_of_ne he]
      simp [he]

theorem authorized_ne_answered (authToken token : Option Str) (status : Nat) :
    authorized authToken token ≠ .answered status := by
  unfold authorized
  cases authorize authToken token <;> simp

theorem Accounted.step (h : s.Accounted req) (a : Action) :
    (s.step authToken handlers req a).Accounted req := by
  cases a with
  | check t' created now =>
      simp only [Server.step]
      split
      · rename_i hwaiting
        have hbefore : ∀ status, s.point t' ≠ .answered status := by simp [hwaiting]
        simp only [check]
        split
        · exact h.moves rfl rfl rfl hbefore (by simp)
        · refine h.moves rfl rfl rfl hbefore fun status => ?_
          split
          · exact authorized_ne_answered _ _ status
          · simp
      · exact h
  | serve t' =>
      simp only [Server.step]
      split
      · rename_i hserving
        have hbefore : ∀ status, s.point t' ≠ .answered status := by simp [hserving]
        simp only [serve]
        split
        · exact h.moves rfl rfl rfl hbefore (by simp)
        · split <;> exact h.moves rfl rfl rfl hbefore (by simp)
      · exact h
  | record t' now latency =>
      simp only [Server.step]
      split
      · rename_i hrecording
        exact h.record hrecording now latency
      · exact h

/-- Whatever the interleaving, every request is recorded and answered once at most, the counters of a
bucket are those of the answers to its requests, and each of these has exactly one outcome. -/
theorem activity_exact (authToken : Option Str) (handlers : Handlers ε β) (req : Nat → Request β)
    (engine : ε) (limiter : Option RateLimiter) (as : List Action) (name : String) :
    let s := run (step authToken handlers req) (new engine limiter) as
    let stats := (Dict.get? s.stats name).getD ⟨0, 0, 0, 0⟩
    (s.answers.map Prod.fst).Nodup ∧
      (∀ t status, (t, status) ∈ s.answers ↔ s.point t = .answered status) ∧
      stats = statsOf (inBucket req name s.answers) ∧
      stats.requests = stats.ok + stats.clientError + stats.serverError := by
  intro s stats
  have h : s.Accounted req :=
    inv_run (I := fun s : Server ε => s.Accounted req) (fun _ a hs => hs.step a)
      (accounted_new req engine limiter) as
  have hstats : stats = statsOf (inBucket req name s.answers) := h.stats name
  refine ⟨h.once, h.points, hstats, ?_⟩
  rw [hstats]
  generalize inBucket req name s.answers = answers
  induction answers with
  | nil => rfl
  | cons a answers ih =>
      simp only [statsOf, List.length_cons, List.countP_cons, decide_eq_true_eq] at ih ⊢
      split <;> split <;> split <;> omega

end Server

end ShugoCore
