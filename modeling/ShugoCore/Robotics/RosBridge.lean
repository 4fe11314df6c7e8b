import ShugoCore.Lib.Run
import ShugoCore.Lib.Sessions
import ShugoCore.Robotics.Ros2

/-!
# Sessions with a rosbridge server

`RosBridgeInterface` of `android_bridge.py`.  It connects when it has something to send, and a send
that fails closes the connection, so that the next one connects again.

What it told the server is kept in the client and not per connection: a topic is advertised once, and a
subscriber is subscribed when it is created.  After a reconnect the server knows of neither, and
what is published is published on a topic that was never advertised there.  This goes well exactly
if no attempt to send has failed since the topic was first published and since each subscriber was
created (`sessions_survive_iff`).
-/

namespace ShugoCore

open Py Machine

/-! ## The client -/

/-- What is published: a message for the robot, or another object, with the text of its payload. -/
inductive BridgeMessage where
  | robot (m : Message)
  | other (payload : Str)
deriving DecidableEq, Repr

/-- `is_stop`. -/
def BridgeMessage.isStop : BridgeMessage → Bool
  | .robot m => m.isEmergencyStop
  | .other _ => false

/-- The check before publishing. -/
def BridgeMessage.validate : BridgeMessage → Except RobotError BridgeMessage
  | .robot m => m.validate.map .robot
  | .other payload => .ok (.other payload)

/-- `ROS_TYPE_NAMES`. -/
def rosTypeNames : Dict Str Str :=
  [(lit "Twist", lit "geometry_msgs/Twist"),
    (lit "JointTrajectory", lit "trajectory_msgs/JointTrajectory"),
    (lit "JointState", lit "sensor_msgs/JointState"),
    (lit "LaserScan", lit "sensor_msgs/LaserScan"),
    (lit "Pose", lit "geometry_msgs/Pose")]

/-- `ros_type_of`. -/
def rosTypeOf (msgType : Str) : Str := (Dict.get? rosTypeNames msgType).getD (lit "std_msgs/String")

/-- What is sent to the server. -/
inductive RosOp where
  | advertise (topic rosType : Str)
  | subscribe (topic rosType : Str)
  | unsubscribe (topic : Str)
  | publish (topic : Str) (msg : BridgeMessage)
deriving DecidableEq, Repr

/-- The op advertises the topic. -/
def RosOp.advertises (topic : Str) : RosOp → Prop
  | .advertise t _ => t = topic
  | .subscribe _ _ | .unsubscribe _ | .publish _ _ => False

/-- The op subscribes to the topic. -/
def RosOp.subscribes (topic : Str) : RosOp → Prop
  | .subscribe t _ => t = topic
  | .advertise _ _ | .unsubscribe _ | .publish _ _ => False

instance (topic : Str) : DecidablePred (RosOp.advertises topic)
  | .advertise t _ => inferInstanceAs (Decidable (t = topic))
  | .subscribe _ _ | .unsubscribe _ | .publish _ _ => inferInstanceAs (Decidable False)

instance (topic : Str) : DecidablePred (RosOp.subscribes topic)
  | .subscribe t _ => inferInstanceAs (Decidable (t = topic))
  | .advertise _ _ | .unsubscribe _ | .publish _ _ => inferInstanceAs (Decidable False)

/-- An entry of the published log, with the topics that had a subscriber then. -/
structure Acknowledged where
  topic : Str
  subscribers : List Str
deriving DecidableEq, Repr

/-- What an attempt to send meets: whether a connection can be opened, if there is none, and
whether the socket takes the op. -/
structure Network where
  connects : Bool
  sends : Bool
deriving DecidableEq, Repr

/-- A client, with what happened on its connections and what it attempted to send. -/
structure RosBridge where
  minInterval : Seconds
  /-- `_ws is not None`. -/
  connected : Bool := false
  publishers : Dict Str Str := []
  subscribers : List Str := []
  advertised : List Str := []
  lastPublishTime : Dict Str Seconds := []
  publishedLog : List (Str × BridgeMessage) := []
  isShutdown : Bool := false
  wire : List (Session.Event RosOp Acknowledged) := []
  attempts : List (RosOp × Bool) := []

namespace RosBridge

/-- A new client. -/
def new (rateLimitHz : PyFloat ℚ) : RosBridge := { minInterval := Ros2.interval rateLimitHz }

/-- `_ensure_ws`. -/
def ensureWs (s : RosBridge) (connects : Bool) : RosBridge :=
  if s.connected || s.isShutdown || !connects then s
  else { s with connected := true, wire := s.wire ++ [.opened] }

/-- `_send`. -/
def send (s : RosBridge) (n : Network) (op : RosOp) : RosBridge :=
  let s := s.ensureWs n.connects
  if s.connected then
    if n.sends then
      { s with wire := s.wire ++ [.sent op], attempts := s.attempts ++ [(op, true)] }
    else
      { s with
        connected := false
        wire := s.wire ++ [.closed]
        attempts := s.attempts ++ [(op, false)] }
  else { s with attempts := s.attempts ++ [(op, false)] }

/-- `create_publisher`. -/
def createPublisher (s : RosBridge) (topic msgType : Str) : RosBridge :=
  { s with publishers := Dict.set s.publishers topic (rosTypeOf msgType) }

/-- `create_subscriber`. -/
def createSubscriber (s : RosBridge) (topic msgType : Str) (n : Network) : RosBridge :=
  ({ s with subscribers := if topic ∈ s.subscribers then s.subscribers else s.subscribers ++ [topic] } :
    RosBridge).send n (.subscribe topic (rosTypeOf msgType))

/-- The rate limit drops the message. -/
def limited (s : RosBridge) (now : Seconds) (topic : Str) (m : BridgeMessage) : Bool :=
  !m.isStop && (Dict.get? s.lastPublishTime topic).any fun last => now - last < s.minInterval

/-- The topic is advertised, if it never was. -/
def advertise (s : RosBridge) (topic rosType : Str) (n : Network) : RosBridge :=
  if topic ∈ s.advertised then s
  else ({ s with advertised := s.advertised ++ [topic] } : RosBridge).send n (.advertise topic rosType)

/-- The message is in the log, whether it was sent or not.  The log keeps the last 512. -/
def acknowledge (s : RosBridge) (topic : Str) (m : BridgeMessage) : RosBridge :=
  let log := s.publishedLog ++ [(topic, m)]
  { s with
    publishedLog := log.drop (log.length - 512)
    wire := s.wire ++ [.noted ⟨topic, s.subscribers⟩] }

/-- The type and the message that a call of `publish` sends, unless it returns or raises before. -/
def outgoing (s : RosBridge) (now : Seconds) (topic : Str) (m : BridgeMessage) :
    Option (Str × BridgeMessage) :=
  match Dict.get? s.publishers topic with
  | none => none
  | some rosType =>
      if s.isShutdown || s.limited now topic m then none
      else m.validate.toOption.map fun sent => (rosType, sent)

/-- The clock reading of a message that is not dropped. -/
def touch (s : RosBridge) (now : Seconds) (topic : Str) (m : BridgeMessage) : RosBridge :=
  if (Dict.get? s.publishers topic).isNone || s.isShutdown || s.limited now topic m then s
  else { s with lastPublishTime := Dict.set s.lastPublishTime topic now }

/-- `publish`, with the network for the two ops. -/
def publish (s : RosBridge) (now : Seconds) (topic : Str) (m : BridgeMessage) (n n' : Network) :
    RosBridge :=
  match s.outgoing now topic m with
  | none => s.touch now topic m
  | some (rosType, sent) =>
      (((s.touch now topic m).advertise topic rosType n).send n' (.publish topic sent)).acknowledge topic
        sent

/-- `is_available`. -/
def isAvailable (s : RosBridge) (connects : Bool) : RosBridge :=
  if s.isShutdown then s else s.ensureWs connects

/-- `shutdown`, with the network for each topic. -/
def shutdown (s : RosBridge) (n : Str → Network) : RosBridge :=
  if s.isShutdown then s
  else
    let t := s.subscribers.foldl (fun t topic => t.send (n topic) (.unsubscribe topic))
      { s with isShutdown := true }
    { t with
      subscribers := []
      connected := false
      wire := if t.connected then t.wire ++ [.closed] else t.wire }

/-- The calls of a client. -/
inductive Call where
  | createPublisher (topic msgType : Str)
  | createSubscriber (topic msgType : Str) (n : Network)
  | publish (now : Seconds) (topic : Str) (m : BridgeMessage) (n n' : Network)
  | isAvailable (connects : Bool)
  | shutdown (n : Str → Network)

/-- One call. -/
def step (s : RosBridge) : Call → RosBridge
  | .createPublisher topic msgType => s.createPublisher topic msgType
  | .createSubscriber topic msgType n => s.createSubscriber topic msgType n
  | .publish now topic m n n' => s.publish now topic m n n'
  | .isAvailable connects => s.isAvailable connects
  | .shutdown n => s.shutdown n

/-- A publish comes after an advertise for its topic, and an entry of the log after a subscribe for
each topic that has a subscriber. -/
def Introduced (sent : List RosOp) : Session.Event RosOp Acknowledged → Prop
  | .sent (.publish topic _) => ∃ op ∈ sent, op.advertises topic
  | .noted entry => ∀ topic ∈ entry.subscribers, ∃ op ∈ sent, op.subscribes topic
  | .opened | .closed | .sent (.advertise _ _) | .sent (.subscribe _ _) | .sent (.unsubscribe _) => True

/-- On each connection everything is introduced before it is used. -/
def SessionsSurvive (s : RosBridge) : Prop := Session.Along Introduced s.wire

/-- Some op of the kind was attempted, and from then on no attempt has failed. -/
def Undisturbed (s : RosBridge) (kind : RosOp → Prop) : Prop :=
  ∃ before op after, s.attempts = before ++ (op, true) :: after ∧ kind op ∧ ∀ a ∈ after, a.2 = true

/-- An attempt to send goes well. -/
def reaches (connected : Bool) (n : Network) : Bool := (connected || n.connects) && n.sends

/-- If a message is sent, no attempt has failed since its topic was first published, nor since each
subscriber was created. -/
def Unbroken (s : RosBridge) : Call → Prop
  | .publish now topic m n n' =>
      (s.outgoing now topic m).isSome = true →
        if topic ∈ s.advertised then
          reaches s.connected n' = true →
            s.Undisturbed (RosOp.advertises topic) ∧ ∀ t ∈ s.subscribers, s.Undisturbed (RosOp.subscribes t)
        else
          reaches (reaches s.connected n) n' = true →
            reaches s.connected n = true ∧ ∀ t ∈ s.subscribers, s.Undisturbed (RosOp.subscribes t)
  | .createPublisher _ _ | .createSubscriber _ _ _ | .isAvailable _ | .shutdown _ => True

/-! ## One attempt -/

/-- The client is connected if a connection is up.  Until it is shut down, what was sent on the
connection is what was attempted since the last failure. -/
structure Linked (s : RosBridge) : Prop where
  connected : s.connected = (Session.current s.wire).isSome
  attempted : s.isShutdown = false →
    Session.sinceFailure s.attempts = (Session.current s.wire).getD []

/-- What a client does before it sends. -/
structure Ensured (s t : RosBridge) (connects : Bool) : Prop where
  linked : t.connected = (Session.current t.wire).isSome
  kept : (Session.current t.wire).getD [] = (Session.current s.wire).getD []
  connected : s.isShutdown = false → t.connected = (s.connected || connects)
  attempts : t.attempts = s.attempts
  subscribers : t.subscribers = s.subscribers
  isShutdown : t.isShutdown = s.isShutdown
  survive : t.SessionsSurvive ↔ s.SessionsSurvive

theorem ensured {s : RosBridge} (h : s.connected = (Session.current s.wire).isSome) (connects : Bool) :
    Ensured s (s.ensureWs connects) connects := by
  simp only [ensureWs]
  split
  · rename_i hstay
    refine ⟨h, rfl, fun hup => ?_, rfl, rfl, rfl, Iff.rfl⟩
    rw [hup] at hstay
    cases hconnected : s.connected <;> cases connects <;> simp_all
  · rename_i hopen
    simp only [Bool.or_eq_true, Bool.not_eq_true', not_or, Bool.not_eq_true, Bool.not_eq_false] at hopen
    have hnone : Session.current s.wire = none := by
      rw [hopen.1.1] at h
      exact Option.not_isSome_iff_eq_none.1 (by simp [← h])
    refine ⟨?_, ?_, fun _ => ?_, rfl, rfl, rfl, ?_⟩
    · simp [Session.next]
    · simp [Session.next, hnone]
    · simp [hopen.2]
    · simp [SessionsSurvive, hnone]

/-- What an attempt to send an op does. -/
structure Sent (s t : RosBridge) (n : Network) (op : RosOp) : Prop where
  linked : t.connected = (Session.current t.wire).isSome
  subscribers : t.subscribers = s.subscribers
  isShutdown : t.isShutdown = s.isShutdown
  connected : s.isShutdown = false → t.connected = reaches s.connected n
  current : s.isShutdown = false → (Session.current t.wire).getD [] =
    if reaches s.connected n = true then (Session.current s.wire).getD [] ++ [op] else []
  attempts : s.isShutdown = false → t.attempts = s.attempts ++ [(op, reaches s.connected n)]
  survive : t.SessionsSurvive ↔ s.SessionsSurvive ∧
    (t.connected = true → Introduced ((Session.current s.wire).getD []) (.sent op))

/-- Without a connection nothing is sent. -/
theorem Ensured.unsent {s t : RosBridge} {n : Network} (h : Ensured s t n.connects)
    (hdown : t.connected = false) (op : RosOp) :
    Sent s { t with attempts := t.attempts ++ [(op, false)] } n op := by
  have hreaches : s.isShutdown = false → reaches s.connected n = false := by
    intro hup
    rw [reaches, ← h.connected hup, hdown, Bool.false_and]
  have hnone : (Session.current t.wire).getD [] = [] := by
    have hlinked := h.linked
    rw [hdown] at hlinked
    cases hcurrent : Session.current t.wire with
    | none => rfl
    | some sent => rw [hcurrent] at hlinked; cases hlinked
  refine ⟨h.linked, h.subscribers, h.isShutdown, ?_, ?_, ?_, ?_⟩
  · intro hup
    rw [hreaches hup, hdown]
  · intro hup
    rw [hreaches hup, hnone]
    simp
  · intro hup
    rw [hreaches hup, h.attempts]
  · simp only [hdown, Bool.false_eq_true, false_implies, and_true]
    exact h.survive

/-- Where there is a connection, it depends on the socket alone. -/
theorem Ensured.reaches_eq {s t : RosBridge} {n : Network} (h : Ensured s t n.connects)
    (hconnected : t.connected = true) (hup : s.isShutdown = false) : reaches s.connected n = n.sends := by
  rw [reaches, ← h.connected hup, hconnected, Bool.true_and]

/-- A connection that is up has what was sent on it before. -/
theorem Ensured.current_eq {s t : RosBridge} {connects : Bool} (h : Ensured s t connects)
    (hconnected : t.connected = true) :
    Session.current t.wire = some ((Session.current s.wire).getD []) := by
  have hlinked := h.linked
  rw [hconnected] at hlinked
  obtain ⟨sent, hcurrent⟩ := Option.isSome_iff_exists.1 hlinked.symm
  rw [← h.kept, hcurrent, Option.getD_some]

/-- An op that the socket takes. -/
theorem Ensured.passed {s t : RosBridge} {n : Network} (h : Ensured s t n.connects)
    (hconnected : t.connected = true) (hsends : n.sends = true) (op : RosOp) :
    Sent s { t with wire := t.wire ++ [.sent op], attempts := t.attempts ++ [(op, true)] } n op := by
  have hcurrent := h.current_eq hconnected
  have hreaches (hup : s.isShutdown = false) : reaches s.connected n = true :=
    (h.reaches_eq hconnected hup).trans hsends
  refine ⟨?_, h.subscribers, h.isShutdown, ?_, ?_, ?_, ?_⟩
  · simp [hcurrent, hconnected, Session.next]
  · intro hup
    rw [hreaches hup, hconnected]
  · intro hup
    simp [hreaches hup, hcurrent, Session.next]
  · intro hup
    rw [hreaches hup, h.attempts]
  · refine Session.along_concat.trans (and_congr h.survive ?_)
    simp [hconnected, hcurrent]

/-- An op that the socket does not take closes the connection. -/
theorem Ensured.failed {s t : RosBridge} {n : Network} (h : Ensured s t n.connects)
    (hconnected : t.connected = true) (hsends : n.sends = false) (op : RosOp) :
    Sent s
      { t with
        connected := false
        wire := t.wire ++ [.closed]
        attempts := t.attempts ++ [(op, false)] } n op := by
  have hreaches (hup : s.isShutdown = false) : reaches s.connected n = false :=
    (h.reaches_eq hconnected hup).trans hsends
  refine ⟨?_, h.subscribers, h.isShutdown, ?_, ?_, ?_, ?_⟩
  · simp [Session.next]
  · intro hup
    rw [hreaches hup]
  · intro hup
    simp [hreaches hup, Session.next]
  · intro hup
    rw [hreaches hup, h.attempts]
  · refine Session.along_concat.trans (and_congr h.survive ?_)
    simp [Introduced]

theorem sent_send {s : RosBridge} (h : s.connected = (Session.current s.wire).isSome) (n : Network)
    (op : RosOp) : Sent s (s.send n op) n op := by
  have hensured := ensured h n.connects
  simp only [send]
  generalize s.ensureWs n.connects = t at hensured ⊢
  split
  · rename_i hconnected
    split
    · rename_i hsends
      exact hensured.passed hconnected hsends op
    · rename_i hsends
      exact hensured.failed hconnected (Bool.eq_false_iff.2 hsends) op
  · rename_i hdown
    exact hensured.unsent (Bool.eq_false_iff.2 hdown) op

/-! ## The calls -/

/-- What survived is what was attempted since the last failure. -/
theorem undisturbed_iff {s : RosBridge} (hs : Linked s) (hup : s.isShutdown = false)
    {kind : RosOp → Prop} :
    s.Undisturbed kind ↔ ∃ op ∈ (Session.current s.wire).getD [], kind op := by
  rw [← hs.attempted hup]
  constructor
  · rintro ⟨before, op, after, hsplit, hkind, hafter⟩
    exact ⟨op, Session.mem_sinceFailure_iff.2 ⟨before, after, hsplit, hafter⟩, hkind⟩
  · rintro ⟨op, hop, hkind⟩
    obtain ⟨before, after, hsplit, hafter⟩ := Session.mem_sinceFailure_iff.1 hop
    exact ⟨before, op, after, hsplit, hkind, hafter⟩

theorem Linked.send {s : RosBridge} (h : Linked s) (n : Network) (op : RosOp) : Linked (s.send n op) := by
  have hsent := sent_send h.connected n op
  refine ⟨hsent.linked, fun hup => ?_⟩
  rw [hsent.isShutdown] at hup
  rw [hsent.current hup, hsent.attempts hup]
  cases reaches s.connected n with
  | false => simp
  | true => simp [h.attempted hup]

theorem Linked.ensureWs {s : RosBridge} (h : Linked s) (connects : Bool) : Linked (s.ensureWs connects) := by
  have hensured := ensured h.connected connects
  refine ⟨hensured.linked, fun hup => ?_⟩
  rw [hensured.isShutdown] at hup
  rw [hensured.kept, hensured.attempts, h.attempted hup]

theorem Linked.advertise {s : RosBridge} (h : Linked s) (topic rosType : Str) (n : Network) :
    Linked (s.advertise topic rosType n) := by
  simp only [RosBridge.advertise]
  split
  · exact h
  · have hmarked : Linked { s with advertised := s.advertised ++ [topic] } :=
      ⟨h.connected, h.attempted⟩
    exact hmarked.send n (.advertise topic rosType)

theorem Linked.touch {s : RosBridge} (h : Linked s) (now : Seconds) (topic : Str) (m : BridgeMessage) :
    Linked (s.touch now topic m) := by
  simp only [RosBridge.touch]
  split
  · exact h
  · exact ⟨h.connected, h.attempted⟩

theorem Linked.acknowledge {s : RosBridge} (h : Linked s) (topic : Str) (m : BridgeMessage) :
    Linked (s.acknowledge topic m) := by
  simp only [RosBridge.acknowledge]
  exact ⟨by simp [h.connected, Session.next], fun hup => by simp [h.attempted hup, Session.next]⟩

theorem Linked.publish {s : RosBridge} (h : Linked s) (now : Seconds) (topic : Str) (m : BridgeMessage)
    (n n' : Network) : Linked (s.publish now topic m n n') := by
  simp only [RosBridge.publish]
  split
  · exact h.touch now topic m
  · exact (((h.touch now topic m).advertise topic _ n).send n' _).acknowledge topic _

/-- Unsubscribing asks for nothing that went before. -/
theorem unsubscribed {s : RosBridge} (h : Linked s) (n : Str → Network) (topics : List Str) :
    Linked (topics.foldl (fun t topic => t.send (n topic) (.unsubscribe topic)) s) ∧
      ((topics.foldl (fun t topic => t.send (n topic) (.unsubscribe topic)) s).SessionsSurvive ↔
        s.SessionsSurvive) ∧
      (topics.foldl (fun t topic => t.send (n topic) (.unsubscribe topic)) s).isShutdown =
        s.isShutdown := by
  induction topics generalizing s with
  | nil => exact ⟨h, Iff.rfl, rfl⟩
  | cons topic topics ih =>
      have hsent := sent_send h.connected (n topic) (.unsubscribe topic)
      obtain ⟨hlinked, hsurvive, hshut⟩ := ih (h.send (n topic) (.unsubscribe topic))
      refine ⟨hlinked, hsurvive.trans (hsent.survive.trans ?_), hshut.trans hsent.isShutdown⟩
      simp [Introduced]

/-- A shutdown closes the connection. -/
theorem shut_down {s : RosBridge} (h : Linked s) (n : Str → Network) :
    Linked (s.shutdown n) ∧ ((s.shutdown n).SessionsSurvive ↔ s.SessionsSurvive) := by
  simp only [shutdown]
  split
  · exact ⟨h, Iff.rfl⟩
  · have hmarked : Linked { s with isShutdown := true } := ⟨h.connected, fun hup => by cases hup⟩
    obtain ⟨hlinked, hsurvive, hshut⟩ := unsubscribed hmarked n s.subscribers
    generalize s.subscribers.foldl (fun t topic => t.send (n topic) (.unsubscribe topic))
      { s with isShutdown := true } = t at hlinked hsurvive hshut ⊢
    have hdown : t.isShutdown = false → False := by simp [hshut]
    refine ⟨⟨?_, fun hup => (hdown hup).elim⟩, ?_⟩
    · have hup := hlinked.connected
      cases hconnected : t.connected with
      | false => simp [← hup, hconnected]
      | true => simp [Session.next]
    · refine Iff.trans ?_ hsurvive
      simp only [SessionsSurvive]
      split
      · simp [Introduced]
      · exact Iff.rfl

/-- A subscriber is registered and subscribed. -/
theorem subscribed {s : RosBridge} (h : Linked s) (topic msgType : Str) (n : Network) :
    Linked (s.createSubscriber topic msgType n) ∧
      ((s.createSubscriber topic msgType n).SessionsSurvive ↔ s.SessionsSurvive) := by
  simp only [createSubscriber]
  generalize (if topic ∈ s.subscribers then s.subscribers else s.subscribers ++ [topic]) = topics
  have hregistered : Linked { s with subscribers := topics } := ⟨h.connected, h.attempted⟩
  have hsent := sent_send hregistered.connected n (.subscribe topic (rosTypeOf msgType))
  refine ⟨hregistered.send n _, hsent.survive.trans ?_⟩
  simp [Introduced, SessionsSurvive]

/-- What a client knows of its connection is kept by every call. -/
theorem Linked.step {s : RosBridge} (h : Linked s) (c : Call) : Linked (s.step c) := by
  cases c with
  | createPublisher topic msgType => exact ⟨h.connected, h.attempted⟩
  | createSubscriber topic msgType n => exact (subscribed h topic msgType n).1
  | publish now topic m n n' => exact h.publish now topic m n n'
  | isAvailable connects =>
      simp only [RosBridge.step, isAvailable]
      split
      · exact h
      · exact h.ensureWs connects
  | shutdown n => exact (shut_down h n).1

/-- What a publish needs of the connection once the topic was advertised. -/
theorem survive_publish {s : RosBridge} (h : Linked s) (hup : s.isShutdown = false) (topic : Str)
    (m : BridgeMessage) (n' : Network) :
    ((s.send n' (.publish topic m)).acknowledge topic m).SessionsSurvive ↔
      s.SessionsSurvive ∧ (reaches s.connected n' = true →
        (∃ op ∈ (Session.current s.wire).getD [], op.advertises topic) ∧
          ∀ t ∈ s.subscribers, ∃ op ∈ (Session.current s.wire).getD [], op.subscribes t) := by
  have hsent := sent_send h.connected n' (.publish topic m)
  have hcurrent := hsent.current hup
  have hconnected := hsent.connected hup
  have hlinked := hsent.linked
  generalize s.send n' (.publish topic m) = t at hsent hcurrent hconnected hlinked ⊢
  have hnoted : (t.acknowledge topic m).SessionsSurvive ↔ t.SessionsSurvive ∧
      ∀ sent ∈ Session.current t.wire, ∀ u ∈ s.subscribers, ∃ op ∈ sent, op.subscribes u := by
    rw [← hsent.subscribers]
    exact Session.along_concat
  rw [hnoted, hsent.survive, hconnected, and_assoc]
  refine and_congr_right fun _ => ?_
  cases hreaches : reaches s.connected n' with
  | false =>
      rw [hconnected, hreaches] at hlinked
      simp [Option.not_isSome_iff_eq_none.1 (by simp [← hlinked] : ¬(Session.current t.wire).isSome = true)]
  | true =>
      rw [hconnected, hreaches] at hlinked
      obtain ⟨sent, hsome⟩ := Option.isSome_iff_exists.1 hlinked.symm
      rw [hreaches, if_pos rfl, hsome, Option.getD_some] at hcurrent
      simp [hsome, hcurrent, Introduced, RosOp.subscribes, or_and_right, exists_or]

/-- What a message that is sent needs, after an advertise if its topic was never advertised. -/
theorem survive_advertised {s : RosBridge} (h : Linked s) (hup : s.isShutdown = false)
    (topic rosType : Str) (m : BridgeMessage) (n n' : Network) :
    (((s.advertise topic rosType n).send n' (.publish topic m)).acknowledge topic m).SessionsSurvive ↔
      s.SessionsSurvive ∧
        if topic ∈ s.advertised then
          reaches s.connected n' = true →
            s.Undisturbed (RosOp.advertises topic) ∧ ∀ t ∈ s.subscribers, s.Undisturbed (RosOp.subscribes t)
        else
          reaches (reaches s.connected n) n' = true →
            reaches s.connected n = true ∧ ∀ t ∈ s.subscribers, s.Undisturbed (RosOp.subscribes t) := by
  simp only [undisturbed_iff h hup, RosBridge.advertise]
  split
  · exact survive_publish h hup topic m n'
  · have hmarked : Linked { s with advertised := s.advertised ++ [topic] } :=
      ⟨h.connected, h.attempted⟩
    have hsent := sent_send hmarked.connected n (.advertise topic rosType)
    have hopen := hmarked.send n (.advertise topic rosType)
    have hconnected := hsent.connected hup
    have hcurrent := hsent.current hup
    have hshut := hsent.isShutdown.trans hup
    generalize RosBridge.send { s with advertised := s.advertised ++ [topic] } n
      (.advertise topic rosType) = t at hsent hopen hconnected hcurrent hshut ⊢
    have hsurvive : t.SessionsSurvive ↔ s.SessionsSurvive :=
      hsent.survive.trans (by simp [Introduced, SessionsSurvive])
    rw [survive_publish hopen hshut, hsurvive, hconnected, hcurrent, hsent.subscribers]
    refine and_congr_right fun _ => imp_congr_right fun _ => ?_
    cases reaches s.connected n with
    | false => simp
    | true => simp [RosOp.advertises, RosOp.subscribes, or_and_right, exists_or]

theorem touch_eq (s : RosBridge) (now : Seconds) (topic : Str) (m : BridgeMessage) :
    ∃ times, s.touch now topic m = { s with lastPublishTime := times } := by
  simp only [touch]
  split
  · exact ⟨s.lastPublishTime, rfl⟩
  · exact ⟨_, rfl⟩

/-- A client that is shut down sends no message. -/
theorem up_of_outgoing {s : RosBridge} {now : Seconds} {topic : Str} {m : BridgeMessage}
    {out : Str × BridgeMessage} (h : s.outgoing now topic m = some out) : s.isShutdown = false := by
  cases hshut : s.isShutdown with
  | false => rfl
  | true =>
      simp only [outgoing, hshut, Bool.true_or, if_true] at h
      split at h <;> cases h

/-- Of the calls only a publish can break a session. -/
theorem survive_step_iff {s : RosBridge} (h : Linked s) (c : Call) :
    (s.step c).SessionsSurvive ↔ s.SessionsSurvive ∧ s.Unbroken c := by
  cases c with
  | createPublisher topic msgType => simp [step, createPublisher, SessionsSurvive, Unbroken]
  | createSubscriber topic msgType n =>
      exact (subscribed h topic msgType n).2.trans (by simp [Unbroken])
  | publish now topic m n n' =>
      simp only [step, publish, Unbroken]
      cases hout : s.outgoing now topic m with
      | none =>
          simp only [Option.isSome_none, Bool.false_eq_true, false_implies, and_true, touch]
          split <;> exact Iff.rfl
      | some out =>
          obtain ⟨times, htouch⟩ := s.touch_eq now topic m
          have hup := up_of_outgoing hout
          have htouched : Linked { s with lastPublishTime := times } := ⟨h.connected, h.attempted⟩
          simp only [htouch, Option.isSome_some, forall_const]
          exact survive_advertised htouched hup topic out.1 out.2 n n'
  | isAvailable connects =>
      simp only [step, isAvailable]
      split
      · simp [Unbroken]
      · exact (ensured h.connected connects).survive.trans (by simp [Unbroken])
  | shutdown n => exact (shut_down h n).2.trans (by simp [Unbroken])

end RosBridge

/-- On every connection of every run each publish comes after an advertise for its topic, and each
subscriber is subscribed before a publish is in the log, exactly if a message is only sent when
no attempt has failed since its topic was first published and since each subscriber was created. -/
theorem sessions_survive_iff (rateLimitHz : PyFloat ℚ) (calls : List RosBridge.Call) :
    Always RosBridge.step RosBridge.SessionsSurvive (RosBridge.new rateLimitHz) calls ↔
      Meets RosBridge.step RosBridge.Unbroken (RosBridge.new rateLimitHz) calls := by
  refine always_iff_meets (I := RosBridge.Linked) (fun s c h => h.step c) (fun s c h hs => ?_)
    ⟨rfl, fun _ => rfl⟩ (Session.along_nil _)
  rw [RosBridge.survive_step_iff h c]
  exact and_iff_right hs

/-- The connection is lost between two publishes: on the new one `/cmd_vel` is not advertised. -/
theorem never_advertised_again :
    ¬Always RosBridge.step RosBridge.SessionsSurvive (RosBridge.new (.finite 30))
      [.createPublisher (lit "/cmd_vel") (lit "Twist"),
        .publish 0 (lit "/cmd_vel") (.robot (.twist .zero)) ⟨true, true⟩ ⟨true, true⟩,
        .publish 1 (lit "/cmd_vel") (.robot (.twist .zero)) ⟨true, true⟩ ⟨true, false⟩,
        .publish 2 (lit "/cmd_vel") (.robot (.twist .zero)) ⟨true, true⟩ ⟨true, true⟩] := by
  intro h
  obtain ⟨op, hop, -⟩ := h.last
    [.opened, .sent (.advertise (lit "/cmd_vel") (lit "geometry_msgs/Twist")),
      .sent (.publish (lit "/cmd_vel") (.robot (.twist .zero))), .noted ⟨lit "/cmd_vel", []⟩, .closed,
      .noted ⟨lit "/cmd_vel", []⟩, .opened]
    (.sent (.publish (lit "/cmd_vel") (.robot (.twist .zero)))) [.noted ⟨lit "/cmd_vel", []⟩] rfl [] rfl
  cases hop

end ShugoCore
