import ShugoCore.Audit.Chain
import ShugoCore.Audit.Sinks

/-!
# The chain with its sinks

`AuditChain.append`, `add_sink` and the sinks of `audit.py` together.  `append`
writes the entry and takes a snapshot of the sinks under the lock, and hands the
entry to each sink of the snapshot outside it.  So any number of threads are
between their write and their last `submit` while others write, register sinks
or flush.

Each sink is its own object and gets entries from this chain only.
-/

namespace ShugoCore

open Py Machine

variable {φ : Type}

/-- A thread that has stored an entry and is handing it to the sinks of its snapshot. -/
structure Dispatch (φ : Type) where
  entry : Obj φ
  /-- The sinks that have not returned from `submit`. -/
  todo : List Nat
  /-- Whether the thread is inside the `submit` of the first of them. -/
  inside : Bool

/-- The sinks that have not got the entry. -/
def Dispatch.waiting (d : Dispatch φ) : List Nat := if d.inside then d.todo.tail else d.todo

/-- A registered sink. -/
structure Registered (φ : Type) where
  bounds : SinkBounds
  sink : Sink (Obj φ)
  /-- How many entries had been stored when it was registered. -/
  since : Nat

/-- A chain, its file and its sinks, with the threads inside `append`. -/
structure MirroredChain (φ : Type) where
  chain : AuditChain
  file : Option Str
  sinks : List (Registered φ)
  threads : Dict Nat (Dispatch φ)
  /-- The entries that were stored. -/
  stored : List (Obj φ)

namespace MirroredChain

/-- A chain on a file, with no sinks. -/
def opened (chain : AuditChain) (file : Option Str) : MirroredChain φ := ⟨chain, file, [], [], []⟩

/-- One step of the system. -/
inductive Action (φ : Type) where
  /-- A thread calls `append`, up to the end of its `with self._lock`. -/
  | append (thread : Nat) (call : AppendCall φ)
  /-- `add_sink`. -/
  | addSink (bounds : SinkBounds)
  /-- A thread takes its next step in the loop over its snapshot. -/
  | dispatch (thread : Nat)
  /-- The flusher of a sink takes its next step. -/
  | flush (sink : Nat) (ok : Bool)

/-- A step of one of the sinks. -/
def onSink (s : MirroredChain φ) (i : Nat) (a : Sink.Action (Obj φ)) : MirroredChain φ :=
  { s with sinks := s.sinks.modify i fun r => { r with sink := r.sink.step r.bounds a } }

/-- Whether a thread is inside the `submit` of a sink. -/
def isInside (s : MirroredChain φ) (i t : Nat) : Bool :=
  (s.sinks[i]?.bind fun r => Dict.get? r.sink.submissions t).isSome

/-- The next step of a thread in the loop over its snapshot. -/
def dispatch (s : MirroredChain φ) (t : Nat) (d : Dispatch φ) : MirroredChain φ :=
  match d.todo with
  | [] => { s with threads := Dict.remove s.threads t }
  | i :: rest =>
      if d.inside then
        if s.isInside i t then s.onSink i (.advance t)
        else { s with threads := Dict.set s.threads t { d with todo := rest, inside := false } }
      else
        { s.onSink i (.submit t d.entry) with
          threads := Dict.set s.threads t { d with inside := true } }

/-- A step of the system.  An `append` that raises stores nothing and hands nothing on. -/
def step [Builtins φ] (hashes : Hashlib) (s : MirroredChain φ) : Action φ → MirroredChain φ
  | .append t call =>
      match Dict.get? s.threads t with
      | some _ => s
      | none =>
          match s.chain.makeEntry hashes call, s.chain.append hashes s.file call with
          | .ok (entry, _), .ok (chain, file) =>
              { s with
                chain
                file
                threads := Dict.set s.threads t ⟨entry, List.range s.sinks.length, false⟩
                stored := s.stored ++ [entry] }
          | _, _ => s
  | .addSink bounds => { s with sinks := s.sinks ++ [⟨bounds, .new, s.stored.length⟩] }
  | .dispatch t =>
      match Dict.get? s.threads t with
      | some d => s.dispatch t d
      | none => s
  | .flush i ok => s.onSink i (.flush ok)

/-- The entries that threads have stored and not yet handed to a sink. -/
def pendingIn (threads : Dict Nat (Dispatch φ)) (i : Nat) : List (Obj φ) :=
  (threads.filter fun d => i ∈ d.2.waiting).map fun d => d.2.entry

def pending (s : MirroredChain φ) (i : Nat) : List (Obj φ) := pendingIn s.threads i

/-- The line of the file an entry is stored in. -/
def lineOf [Builtins φ] (entry : Obj φ) : Str := (dumps spaced (.dict entry)).getD [] ++ [newline]

/-! ## One step -/

theorem pendingIn_perm {threads others : Dict Nat (Dispatch φ)} {t : Nat} {d : Dispatch φ}
    (h : threads.Perm ((t, d) :: others)) (i : Nat) :
    (pendingIn threads i).Perm ((if i ∈ d.waiting then [d.entry] else []) ++ pendingIn others i) := by
  have hp := (h.filter fun d => i ∈ d.2.waiting).map fun d => d.2.entry
  refine hp.trans ?_
  by_cases hi : i ∈ d.waiting <;> simp [pendingIn, hi]

/-- What holds of a sink whichever way the threads run. -/
structure Mirrors (s : MirroredChain φ) (i : Nat) (r : Registered φ) : Prop where
  sound : r.sink.Sound r.bounds
  since : r.since ≤ s.stored.length
  /-- A thread inside `submit` is at this sink in its loop. -/
  inside : ∀ t, Dict.get? r.sink.submissions t ≠ none →
    ∃ d, Dict.get? s.threads t = some d ∧ d.inside = true ∧ d.todo.head? = some i
  /-- What was stored since the sink was registered has come in or is pending. -/
  entered : (r.sink.entered ++ s.pending i).Perm (s.stored.drop r.since)

/-- What holds whichever way the threads run. -/
structure Sound [Builtins φ] (start : Option Str) (s : MirroredChain φ) : Prop where
  threads : (s.threads.map Prod.fst).Nodup
  snapshots : ∀ t d, Dict.get? s.threads t = some d →
    d.todo.Nodup ∧ ∀ i ∈ d.todo, i < s.sinks.length
  sinks : ∀ i r, s.sinks[i]? = some r → s.Mirrors i r
  lines : s.file.getD [] = start.getD [] ++ s.stored.flatMap lineOf

theorem sound_opened [Builtins φ] (chain : AuditChain) (file : Option Str) :
    (opened chain file : MirroredChain φ).Sound file where
  threads := List.nodup_nil
  snapshots _ _ hd := by cases hd
  sinks _ _ hr := by cases hr
  lines := (List.append_nil _).symm

theorem sinks_onSink {s : MirroredChain φ} {i j : Nat} {a : Sink.Action (Obj φ)}
    {r : Registered φ} (hr : (s.onSink i a).sinks[j]? = some r) :
    ∃ r₀, s.sinks[j]? = some r₀ ∧
      r = if i = j then { r₀ with sink := r₀.sink.step r₀.bounds a } else r₀ := by
  simp only [MirroredChain.onSink, List.getElem?_modify] at hr
  obtain ⟨r₀, hr₀, rfl⟩ := Option.map_eq_some_iff.1 hr
  exact ⟨r₀, hr₀, rfl⟩

@[simp] theorem length_onSink (s : MirroredChain φ) (i : Nat) (a : Sink.Action (Obj φ)) :
    (s.onSink i a).sinks.length = s.sinks.length := List.length_modify ..

theorem pending_of_perm {s : MirroredChain φ} {threads others : Dict Nat (Dispatch φ)} {t : Nat}
    {d d' : Dispatch φ} (h : s.threads.Perm ((t, d) :: others))
    (h' : threads.Perm ((t, d') :: others)) {i : Nat}
    (he : d'.entry = d.entry) (hi : i ∈ d'.waiting ↔ i ∈ d.waiting) :
    (pendingIn threads i).Perm (s.pending i) := by
  refine (pendingIn_perm h' i).trans (.trans ?_ (pendingIn_perm h i).symm)
  simp only [he, hi]
  exact .refl _

variable [Builtins φ] {start : Option Str} {s : MirroredChain φ}

/-- A step of a sink that brings nothing in. -/
theorem Sound.onSink (h : s.Sound start) (i : Nat) {a : Sink.Action (Obj φ)}
    (ha : ∀ t e, a ≠ .submit t e) : (s.onSink i a).Sound start := by
  refine { h with
    snapshots := fun t d hd => by rw [length_onSink]; exact h.snapshots t d hd
    sinks := fun j r hr => ?_ }
  obtain ⟨r₀, hr₀, rfl⟩ := sinks_onSink hr
  have hm := h.sinks j r₀ hr₀
  split
  · obtain ⟨hentered, hsub⟩ := r₀.sink.step_of_not_submit (b := r₀.bounds) ha
    refine ⟨hm.sound.step a, hm.since, fun t ht => hm.inside t (hsub t ht), ?_⟩
    rw [hentered]
    exact hm.entered
  · exact ⟨hm.sound, hm.since, hm.inside, hm.entered⟩

/-- A thread hands its entry to the first sink of what is left of its snapshot. -/
theorem Sound.submit (h : s.Sound start) {t i : Nat} {d : Dispatch φ} {rest : List Nat}
    (hd : Dict.get? s.threads t = some d) (htodo : d.todo = i :: rest) (hin : d.inside = false) :
    ({ s.onSink i (.submit t d.entry) with
      threads := Dict.set s.threads t { d with inside := true } } : MirroredChain φ).Sound start := by
  have hperm := Dict.perm_cons_remove h.threads hd
  have hperm' := Dict.set_perm h.threads t { d with inside := true }
  have hnodup := (h.snapshots t d hd).1
  rw [htodo, List.nodup_cons] at hnodup
  have hother : ∀ {j : Nat}, j ≠ i →
      (j ∈ ({ d with inside := true } : Dispatch φ).waiting ↔ j ∈ d.waiting) := by
    intro j hj
    simp [Dispatch.waiting, hin, htodo, hj]
  have hthread : ∀ j t', (∃ d', Dict.get? s.threads t' = some d' ∧ d'.inside = true ∧
      d'.todo.head? = some j) → ∃ d', Dict.get? (Dict.set s.threads t { d with inside := true }) t' =
        some d' ∧ d'.inside = true ∧ d'.todo.head? = some j := by
    rintro j t' ⟨d', hd', hi, hj⟩
    by_cases ht : t = t'
    · subst ht
      rw [hd] at hd'
      cases hd'
      rw [hin] at hi
      cases hi
    · exact ⟨d', by rwa [Dict.get?_set_of_ne _ ht], hi, hj⟩
  refine ⟨Dict.nodup_set h.threads, fun t' d' hd' => ?_, fun j r hr => ?_, h.lines⟩
  · rw [length_onSink]
    by_cases ht : t = t'
    · subst ht
      rw [Dict.get?_set_self] at hd'
      cases hd'
      exact h.snapshots t d hd
    · rw [Dict.get?_set_of_ne _ ht] at hd'
      exact h.snapshots t' d' hd'
  · obtain ⟨r₀, hr₀, rfl⟩ := sinks_onSink hr
    have hm := h.sinks j r₀ hr₀
    by_cases hj : i = j
    · subst hj
      rw [if_pos rfl]
      have hout : Dict.get? r₀.sink.submissions t = none := by
        by_contra hne
        obtain ⟨d', hd', hi, -⟩ := hm.inside t hne
        rw [hd] at hd'
        cases hd'
        rw [hin] at hi
        cases hi
      refine ⟨hm.sound.step (.submit t d.entry), hm.since, fun t' ht' => ?_, ?_⟩
      · by_cases ht : t = t'
        · subst ht
          exact ⟨_, Dict.get?_set_self .., rfl, by rw [htodo]; rfl⟩
        · simp only [Sink.step, hout] at ht'
          rw [Dict.get?_set_of_ne _ ht] at ht'
          exact hthread i t' (hm.inside t' ht')
      · have hbefore := (pendingIn_perm hperm i).symm
        have hafter := pendingIn_perm hperm' i
        rw [if_pos (by simp [Dispatch.waiting, hin, htodo])] at hbefore
        rw [if_neg (by simpa [Dispatch.waiting, htodo] using hnodup.1)] at hafter
        have hall := (hbefore.append_left r₀.sink.entered).trans hm.entered
        simp only [Sink.step, hout]
        refine (hafter.append_left _).trans ?_
        simpa [MirroredChain.onSink] using hall
    · rw [if_neg hj]
      refine ⟨hm.sound, hm.since, fun t' ht' => hthread j t' (hm.inside t' ht'), ?_⟩
      exact ((pending_of_perm hperm hperm' rfl (hother (Ne.symm hj))).append_left _).trans hm.entered

/-- A thread that the sink has let go turns to the rest of its snapshot. -/
theorem Sound.turn (h : s.Sound start) {t i : Nat} {d : Dispatch φ} {rest : List Nat}
    (hd : Dict.get? s.threads t = some d) (htodo : d.todo = i :: rest) (hin : d.inside = true)
    (hout : s.isInside i t = false) :
    ({ s with threads := Dict.set s.threads t { d with todo := rest, inside := false } } :
      MirroredChain φ).Sound start := by
  have hperm := Dict.perm_cons_remove h.threads hd
  have hperm' := Dict.set_perm h.threads t { d with todo := rest, inside := false }
  have hsnap := h.snapshots t d hd
  rw [htodo] at hsnap
  refine ⟨Dict.nodup_set h.threads, fun t' d' hd' => ?_, fun j r hr => ?_, h.lines⟩
  · by_cases ht : t = t'
    · subst ht
      rw [Dict.get?_set_self] at hd'
      cases hd'
      exact ⟨(List.nodup_cons.1 hsnap.1).2, fun j hj => hsnap.2 j (List.mem_cons_of_mem i hj)⟩
    · rw [Dict.get?_set_of_ne _ ht] at hd'
      exact h.snapshots t' d' hd'
  · have hm := h.sinks j r hr
    refine ⟨hm.sound, hm.since, fun t' ht' => ?_, ?_⟩
    · obtain ⟨d', hd', hi, hj⟩ := hm.inside t' ht'
      have ht : t ≠ t' := by
        rintro rfl
        rw [hd] at hd'
        cases hd'
        rw [htodo] at hj
        cases hj
        have hsome : s.isInside i t = true := by
          rw [isInside, hr]
          exact Option.isSome_iff_ne_none.2 ht'
        rw [hout] at hsome
        cases hsome
      exact ⟨d', by rwa [Dict.get?_set_of_ne _ ht], hi, hj⟩
    · have hsame := pending_of_perm (i := j) hperm hperm' rfl (by simp [Dispatch.waiting, hin, htodo])
      exact (hsame.append_left _).trans hm.entered

/-- A thread returns from `append`. -/
theorem Sound.leave (h : s.Sound start) {t : Nat} {d : Dispatch φ}
    (hd : Dict.get? s.threads t = some d) (htodo : d.todo = []) :
    ({ s with threads := Dict.remove s.threads t } : MirroredChain φ).Sound start := by
  have hkeep : ∀ {t' d'}, Dict.get? (Dict.remove s.threads t) t' = some d' →
      Dict.get? s.threads t' = some d' := by
    intro t' d' hd'
    by_cases ht : t = t'
    · subst ht
      rw [Dict.get?_remove_self] at hd'
      cases hd'
    · rwa [Dict.get?_remove_of_ne _ ht] at hd'
  refine ⟨Dict.nodup_remove h.threads t, fun t' d' hd' => h.snapshots t' d' (hkeep hd'),
    fun j r hr => ?_, h.lines⟩
  have hm := h.sinks j r hr
  refine ⟨hm.sound, hm.since, fun t' ht' => ?_, ?_⟩
  · obtain ⟨d', hd', hi, hj⟩ := hm.inside t' ht'
    have ht : t ≠ t' := by
      rintro rfl
      rw [hd] at hd'
      cases hd'
      rw [htodo] at hj
      cases hj
    exact ⟨d', by rwa [Dict.get?_remove_of_ne _ ht], hi, hj⟩
  · have hpending := pendingIn_perm (Dict.perm_cons_remove h.threads hd) j
    rw [if_neg (by simp [Dispatch.waiting, htodo])] at hpending
    exact (hpending.symm.append_left r.sink.entered).trans hm.entered

theorem Sound.dispatch (h : s.Sound start) {t : Nat} {d : Dispatch φ}
    (hd : Dict.get? s.threads t = some d) : (s.dispatch t d).Sound start := by
  unfold MirroredChain.dispatch
  split
  · exact h.leave hd ‹_›
  · split
    · split
      · exact h.onSink _ fun t' e he => by cases he
      · exact h.turn hd ‹_› ‹_› (Bool.eq_false_iff.2 ‹_›)
    · exact h.submit hd ‹_› (Bool.eq_false_iff.2 ‹_›)

/-- The line that `append` writes is the line of the entry it hands on. -/
theorem append_lines {hashes : Hashlib} {c c' : AuditChain} {file file' : Option Str}
    {call : AppendCall φ} {entry : Obj φ} {hash : Str}
    (hm : c.makeEntry hashes call = .ok (entry, hash))
    (ha : c.append hashes file call = .ok (c', file')) :
    file'.getD [] = file.getD [] ++ lineOf entry := by
  simp only [AuditChain.append, hm, bind, Except.bind] at ha
  split at ha
  · rename_i line hline
    cases ha
    simp [lineOf, hline]
  · cases ha

/-- An entry is stored, and every sink there is will get it. -/
theorem Sound.append (h : s.Sound start) {t : Nat} (hd : Dict.get? s.threads t = none)
    {entry : Obj φ} (chain : AuditChain) {file : Option Str}
    (hfile : file.getD [] = s.file.getD [] ++ lineOf entry) :
    ({ s with
      chain
      file
      threads := Dict.set s.threads t ⟨entry, List.range s.sinks.length, false⟩
      stored := s.stored ++ [entry] } : MirroredChain φ).Sound start := by
  have hothers := Dict.remove_of_not_mem (Dict.not_mem_keys_iff.2 hd)
  have hperm := Dict.set_perm h.threads t ⟨entry, List.range s.sinks.length, false⟩
  rw [hothers] at hperm
  refine ⟨Dict.nodup_set h.threads, fun t' d' hd' => ?_, fun j r hr => ?_, ?_⟩
  · by_cases ht : t = t'
    · subst ht
      rw [Dict.get?_set_self] at hd'
      cases hd'
      exact ⟨List.nodup_range, fun i hi => List.mem_range.1 hi⟩
    · rw [Dict.get?_set_of_ne _ ht] at hd'
      exact h.snapshots t' d' hd'
  · have hm := h.sinks j r hr
    have hj : j < s.sinks.length := (List.getElem?_eq_some_iff.1 hr).1
    refine ⟨hm.sound, ?_, fun t' ht' => ?_, ?_⟩
    · exact Nat.le_trans hm.since (by simp)
    · obtain ⟨d', hd', hi, hj⟩ := hm.inside t' ht'
      have ht : t ≠ t' := by
        rintro rfl
        rw [hd] at hd'
        cases hd'
      exact ⟨d', by rwa [Dict.get?_set_of_ne _ ht], hi, hj⟩
    · have hpending := pendingIn_perm hperm j
      rw [if_pos (by simpa [Dispatch.waiting] using hj)] at hpending
      have hall := (hm.entered.cons entry).trans
        (List.perm_append_singleton entry (s.stored.drop r.since)).symm
      rw [List.drop_append_of_le_length hm.since]
      refine .trans ?_ hall
      exact (hpending.append_left _).trans List.perm_middle
  · rw [hfile, h.lines, List.flatMap_append]
    simp

/-- No thread waits on a sink that is not registered. -/
theorem Sound.pending_nil (h : s.Sound start) {j : Nat} (hj : ¬ j < s.sinks.length) :
    pendingIn s.threads j = [] := by
  rw [pendingIn, List.map_eq_nil_iff, List.filter_eq_nil_iff]
  intro i hi
  have hget := (Dict.get?_eq_some_iff h.threads (k := i.1) (v := i.2)).2 hi
  have hlt := (h.snapshots i.1 i.2 hget).2 j
  simp only [decide_eq_true_eq]
  intro hwait
  refine hj (hlt ?_)
  unfold Dispatch.waiting at hwait
  split at hwait
  · exact List.mem_of_mem_tail hwait
  · exact hwait

theorem Sound.addSink (h : s.Sound start) (bounds : SinkBounds) :
    ({ s with sinks := s.sinks ++ [⟨bounds, .new, s.stored.length⟩] } :
      MirroredChain φ).Sound start := by
  refine { h with
    snapshots := fun t d hd => ⟨(h.snapshots t d hd).1, fun i hi => ?_⟩
    sinks := fun j r hr => ?_ }
  · have := (h.snapshots t d hd).2 i hi
    rw [List.length_append]
    omega
  · by_cases hj : j < s.sinks.length
    · rw [List.getElem?_append_left hj] at hr
      have hm := h.sinks j r hr
      exact ⟨hm.sound, hm.since, hm.inside, hm.entered⟩
    · rw [List.getElem?_append_right (Nat.le_of_not_lt hj), List.getElem?_singleton] at hr
      split at hr
      · cases hr
        refine ⟨Sink.sound_new bounds, Nat.le_refl _, fun t ht => absurd rfl ht, ?_⟩
        show (List.append [] (pendingIn s.threads j)).Perm _
        rw [h.pending_nil hj]
        simp
      · cases hr

theorem Sound.step (hashes : Hashlib) (h : s.Sound start) (a : Action φ) :
    (s.step hashes a).Sound start := by
  cases a with
  | append t call =>
      simp only [MirroredChain.step]
      split
      · exact h
      · split
        · rename_i hd _ _ entry hash chain file hm ha
          exact h.append hd chain (append_lines hm ha)
        · exact h
  | addSink bounds => exact h.addSink bounds
  | dispatch t =>
      simp only [MirroredChain.step]
      split
      · exact h.dispatch ‹_›
      · exact h
  | flush i ok => exact h.onSink i fun t e he => by cases he

theorem sound_run (hashes : Hashlib) (chain : AuditChain) (file : Option Str)
    (as : List (Action φ)) : (run (step hashes) (opened chain file) as).Sound file :=
  inv_run (fun _ a h => h.step hashes a) (sound_opened chain file) as

/-! ## One thread -/

/-- Only this thread appends. -/
def By (t : Nat) : Action φ → Prop
  | .append t' _ => t' = t
  | _ => True

/-- What holds beside the rest while one thread appends: each sink gets the entries in the
order of the chain. -/
structure Solo (t : Nat) (s : MirroredChain φ) : Prop where
  single : s.threads = [] ∨ ∃ d, s.threads = [(t, d)]
  sinks : ∀ i r, s.sinks[i]? = some r →
    r.sink.Lone r.bounds t ∧ r.sink.entered ++ s.pending i = s.stored.drop r.since

theorem Solo.onSink {t : Nat} (hs : s.Sound start) (h : s.Solo t) (i : Nat)
    {a : Sink.Action (Obj φ)} (ha : ∀ t e, a ≠ .submit t e) : (s.onSink i a).Solo t := by
  refine ⟨h.single, fun j r hr => ?_⟩
  obtain ⟨r₀, hr₀, rfl⟩ := sinks_onSink hr
  obtain ⟨hlone, heq⟩ := h.sinks j r₀ hr₀
  split
  · have hby : Sink.By t a := by
      cases a with
      | submit t' e => exact absurd rfl (ha t' e)
      | advance _ | flush _ => trivial
    refine ⟨hlone.step (hs.sinks j r₀ hr₀).sound hby, ?_⟩
    rw [(r₀.sink.step_of_not_submit ha).1]
    exact heq
  · exact ⟨hlone, heq⟩

omit [Builtins φ] in
theorem Solo.get? {t t' : Nat} (h : s.Solo t) {d : Dispatch φ}
    (hd : Dict.get? s.threads t' = some d) : t' = t ∧ s.threads = [(t, d)] := by
  rcases h.single with hn | ⟨d', hn⟩
  · rw [hn] at hd
    cases hd
  · rw [hn, Dict.get?] at hd
    split at hd
    · rename_i ht
      cases hd
      exact ⟨ht.symm, hn⟩
    · cases hd

omit [Builtins φ] in
theorem pending_single {threads : Dict Nat (Dispatch φ)} {t : Nat} {d : Dispatch φ}
    (h : threads = [(t, d)]) (i : Nat) :
    pendingIn threads i = if i ∈ d.waiting then [d.entry] else [] := by
  subst h
  by_cases hi : i ∈ d.waiting <;> simp [pendingIn, hi]

theorem Solo.dispatch {t t' : Nat} (hs : s.Sound start) (h : s.Solo t) {d : Dispatch φ}
    (hd : Dict.get? s.threads t' = some d) : (s.dispatch t' d).Solo t := by
  obtain ⟨rfl, hthreads⟩ := h.get? hd
  have hset : ∀ d', Dict.set s.threads t' d' = [(t', d')] := fun d' => by simp [hthreads, Dict.set]
  have hsnap := hs.snapshots t' d hd
  unfold MirroredChain.dispatch
  split
  · rename_i htodo
    have hnone : Dict.remove s.threads t' = [] := by simp [hthreads, Dict.remove]
    refine ⟨.inl hnone, fun i r hr => ⟨(h.sinks i r hr).1, ?_⟩⟩
    have heq := (h.sinks i r hr).2
    rw [pending, pending_single hthreads, if_neg (by simp [Dispatch.waiting, htodo])] at heq
    simp only [pending, hnone]
    exact heq
  · rename_i i rest htodo
    rw [htodo, List.nodup_cons] at hsnap
    split
    · rename_i hin
      split
      · exact h.onSink hs _ fun t e he => by cases he
      · refine ⟨.inr ⟨_, hset _⟩, fun j r hr => ⟨(h.sinks j r hr).1, ?_⟩⟩
        have heq := (h.sinks j r hr).2
        rw [pending, pending_single hthreads] at heq
        simp only [pending, hset, pending_single rfl]
        simpa [Dispatch.waiting, hin, htodo] using heq
    · rename_i hin
      refine ⟨.inr ⟨_, hset _⟩, fun j r hr => ?_⟩
      obtain ⟨r₀, hr₀, rfl⟩ := sinks_onSink hr
      obtain ⟨hlone, heq⟩ := h.sinks j r₀ hr₀
      have hm := hs.sinks j r₀ hr₀
      rw [pending, pending_single hthreads] at heq
      simp only [pending, hset, pending_single rfl]
      by_cases hj : i = j
      · subst hj
        have hout : Dict.get? r₀.sink.submissions t' = none := by
          by_contra hne
          obtain ⟨d', hd', hi, -⟩ := hm.inside t' hne
          rw [hd] at hd'
          cases hd'
          exact hin hi
        rw [if_pos rfl]
        refine ⟨hlone.step hm.sound (a := .submit t' d.entry) rfl, ?_⟩
        simp only [Sink.step, hout]
        simpa [Dispatch.waiting, hin, htodo, hsnap.1.1, MirroredChain.onSink] using heq
      · rw [if_neg hj]
        refine ⟨hlone, ?_⟩
        simpa [Dispatch.waiting, hin, htodo, Ne.symm hj, MirroredChain.onSink] using heq

theorem Solo.step {t : Nat} (hashes : Hashlib) (hs : s.Sound start) (h : s.Solo t)
    {a : Action φ} (ha : By t a) : (s.step hashes a).Solo t := by
  cases a with
  | append t' call =>
      obtain rfl : t' = t := ha
      simp only [MirroredChain.step]
      split
      · exact h
      · rename_i hd
        split
        · rename_i entry hash chain file hm happend
          have hnone : s.threads = [] := by
            refine h.single.resolve_right fun hone => ?_
            obtain ⟨d, hn⟩ := hone
            rw [hn, Dict.get?, if_pos rfl] at hd
            cases hd
          refine ⟨.inr ⟨_, by rw [hnone]; rfl⟩, fun i r hr => ⟨(h.sinks i r hr).1, ?_⟩⟩
          have hi : i < s.sinks.length := (List.getElem?_eq_some_iff.1 hr).1
          have heq := (h.sinks i r hr).2
          rw [pending, hnone, show pendingIn ([] : Dict Nat (Dispatch φ)) i = [] from rfl,
            List.append_nil] at heq
          simp only [pending, hnone, Dict.set, pending_single rfl]
          rw [if_pos (by simpa [Dispatch.waiting] using hi), heq,
            List.drop_append_of_le_length (hs.sinks i r hr).since]
        · exact h
  | addSink bounds =>
      refine ⟨h.single, fun j r hr => ?_⟩
      by_cases hj : j < s.sinks.length
      · simp only [MirroredChain.step, List.getElem?_append_left hj] at hr
        exact h.sinks j r hr
      · simp only [MirroredChain.step, List.getElem?_append_right (Nat.le_of_not_lt hj),
          List.getElem?_singleton] at hr
        split at hr
        · cases hr
          refine ⟨⟨.inl rfl, fun _ he => (by cases he), rfl, .slnil⟩, ?_⟩
          show [] ++ pendingIn s.threads j = _
          rw [hs.pending_nil hj]
          simp [MirroredChain.step]
        · cases hr
  | dispatch t' =>
      simp only [MirroredChain.step]
      split
      · exact h.dispatch hs ‹_›
      · exact h
  | flush i ok => exact h.onSink hs i fun t e he => by cases he

/-! ## Runs -/

theorem solo_run (hashes : Hashlib) (chain : AuditChain) (file : Option Str) {t : Nat}
    {as : List (Action φ)} (h : ∀ a ∈ as, By t a) :
    (run (step hashes) (opened chain file) as).Sound file ∧
      (run (step hashes) (opened chain file) as).Solo t := by
  have key : ∀ {s : MirroredChain φ}, s.Sound file ∧ s.Solo t →
      (run (step hashes) s as).Sound file ∧ (run (step hashes) s as).Solo t := by
    induction as with
    | nil => exact fun hs => hs
    | cons a as ih =>
        intro s hs
        rw [List.forall_mem_cons] at h
        exact ih h.2 ⟨hs.1.step hashes a, hs.2.step hashes hs.1 h.1⟩
  exact key ⟨sound_opened chain file, .inl rfl, fun _ _ hr => by cases hr⟩

/-- However appending threads, flushers and registrations interleave: the file holds a line for
each entry that was stored, in the order they were, and every entry stored since a sink was
registered is exactly once on its way there, in its queue or its batch, delivered, given up or
lost.  So a sink has nothing that the file has not. -/
theorem mirror_accounts (hashes : Hashlib) (chain : AuditChain) (file : Option Str)
    (as : List (Action φ)) {i : Nat} {r : Registered φ}
    (hr : (run (step hashes) (opened chain file) as).sinks[i]? = some r) :
    (run (step hashes) (opened chain file) as).file.getD [] =
        file.getD [] ++ (run (step hashes) (opened chain file) as).stored.flatMap lineOf ∧
      (r.sink.inSubmit ++ r.sink.queue ++ r.sink.flusher.batch ++ r.sink.settledAs true ++
          r.sink.settledAs false ++ r.sink.lost ++
          (run (step hashes) (opened chain file) as).pending i).Perm
        ((run (step hashes) (opened chain file) as).stored.drop r.since) := by
  have h := sound_run hashes chain file as
  have hm := h.sinks i r hr
  exact ⟨h.lines, (hm.sound.accounted.symm.append_right _).trans hm.entered⟩

/-- A chain whose only entry a sink has delivered. -/
def deliveredOnce : List (Action WholeFloat) :=
  [.addSink ⟨1, 1, 0, Nat.one_pos, Nat.one_pos⟩, .append 0 ⟨lit "t", lit "e", []⟩, .dispatch 0,
    .dispatch 0, .dispatch 0, .dispatch 0, .flush 0 true, .flush 0 true, .flush 0 true,
    .flush 0 true]

/-- The chain this leaves. -/
def onceMirrored : MirroredChain WholeFloat :=
  run (step hashlib) (opened ⟨none, 0, genesisHash⟩ none) deliveredOnce

theorem mirror_accounts_once : ∃ r, onceMirrored.sinks[0]? = some r ∧
    (r.sink.inSubmit ++ r.sink.queue ++ r.sink.flusher.batch ++ r.sink.settledAs true ++
      r.sink.settledAs false ++ r.sink.lost ++ onceMirrored.pending 0).Perm
      (onceMirrored.stored.drop r.since) := by
  have hlt : 0 < onceMirrored.sinks.length := by decide +kernel
  have hr := List.getElem?_eq_getElem hlt
  exact ⟨_, hr, (mirror_accounts hashlib ⟨none, 0, genesisHash⟩ none deliveredOnce hr).2⟩

/-- While one thread appends, a sink flushes entries in the order of the chain, each at most
once.  Once nothing is under way, and its counters show no drop, no failure and nothing
pending, what it has delivered is the chain since it was registered. -/
theorem mirror_in_order (hashes : Hashlib) (chain : AuditChain) (file : Option Str) {t : Nat}
    {as : List (Action φ)} (h : ∀ a ∈ as, By t a) {i : Nat} {r : Registered φ}
    (hr : (run (step hashes) (opened chain file) as).sinks[i]? = some r) :
    (r.sink.flushed ++ r.sink.queue).Sublist
        ((run (step hashes) (opened chain file) as).stored.drop r.since) ∧
      ((run (step hashes) (opened chain file) as).threads = [] → r.sink.flusher.batch = [] →
        r.sink.stats.dropped = 0 → r.sink.stats.failed = 0 → r.sink.stats.pending = 0 →
        r.sink.settledAs true = (run (step hashes) (opened chain file) as).stored.drop r.since) := by
  obtain ⟨hs, hsolo⟩ := solo_run hashes chain file h
  have hm := hs.sinks i r hr
  obtain ⟨hlone, heq⟩ := hsolo.sinks i r hr
  constructor
  · rw [← heq]
    exact (((hm.sound.order.trans (List.sublist_append_left _ _)).trans hlone.order).trans
      (List.sublist_append_left _ _))
  · intro hthreads hbatch hdropped hfailed hpending
    have hsubmit : r.sink.submissions = [] := by
      refine hlone.single.resolve_right fun ⟨p, hp⟩ => ?_
      obtain ⟨d, hd, -⟩ := hm.inside t (by simp [hp, Dict.get?])
      rw [hthreads] at hd
      cases hd
    rw [pending, hthreads, show pendingIn ([] : Dict Nat (Dispatch φ)) i = [] from rfl,
      List.append_nil] at heq
    rw [← heq]
    exact hlone.settledAs_true_eq hm.sound hsubmit hbatch (List.eq_nil_of_length_eq_zero hpending)
      hdropped hfailed

theorem mirror_in_order_once :
    ∃ r, onceMirrored.sinks[0]? = some r ∧ onceMirrored.stored.length = 1 ∧
      r.sink.settledAs true = onceMirrored.stored.drop r.since := by
  have hlt : 0 < onceMirrored.sinks.length := by decide +kernel
  have hrest : ∀ r ∈ onceMirrored.sinks, r.sink.flusher.batch.length = 0 ∧
      r.sink.stats = ⟨1, 1, 0, 0, 0⟩ := by decide +kernel
  have hr := List.getElem?_eq_getElem hlt
  obtain ⟨hbatch, hstats⟩ := hrest _ (List.mem_of_getElem? hr)
  refine ⟨_, hr, by decide +kernel, (mirror_in_order hashlib ⟨none, 0, genesisHash⟩ none (t := 0)
    (by simp [deliveredOnce, By]) hr).2 ?_ (List.eq_nil_of_length_eq_zero hbatch) ?_ ?_ ?_⟩
  · exact List.eq_nil_of_length_eq_zero (by decide +kernel)
  all_goals rw [hstats]

end MirroredChain

end ShugoCore
