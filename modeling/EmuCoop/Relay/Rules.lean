import EmuCoop.Relay.Server

/-!
# The steps of the relay as rules

What each function of the server does to a state, as one rule for each way it can go, with the tests
it has passed.  Invariants are proved by cases over the rules and do not unfold the functions.

## Main results

- `State.resume_cases`, `State.read_cases`, `State.readEnds_cases`, `State.timerStep_cases` : a
  coroutine goes on.
- `State.onPeerDisconnect_cases` : a peer leaves its session.
- `step_cases` : an event happens.
-/

namespace EmuCoop.Relay

open EmuCoop.Lib
open Function (update)

namespace State

variable {cfg : Config} {s s' : State} {c : Conn} {t : TaskId} {sid : SessionId}

/-- How a `handle_client` call begins. -/
inductive Handles (cfg : Config) (c : Conn) (s : State) : State → Prop
  | raises (json : Json) (n : ℕ)
    (hread : readFrame cfg ((s.sock c).sent.drop (s.sock c).taken) = some (.value json, n))
    (hcheck : checkJoin json = .raises) : Handles cfg c s ((s.take c n).raise cfg c)
  | rejected (json : Json) (n : ℕ) (reason : String)
    (hread : readFrame cfg ((s.sock c).sent.drop (s.sock c).taken) = some (.value json, n))
    (hcheck : checkJoin json = .rejected reason) :
    Handles cfg c s ((s.take c n).reject cfg c reason)
  | join (json : Json) (n : ℕ) (code peerId : String)
    (hread : readFrame cfg ((s.sock c).sent.drop (s.sock c).taken) = some (.value json, n))
    (hcheck : checkJoin json = .join code peerId) :
    Handles cfg c s ((s.take c n).join cfg c code peerId)

theorem handleClient_cases (h : s.handleClient cfg c = some s') : Handles cfg c s s' := by
  unfold handleClient at h
  split at h
  · rename_i json n hread
    simp only at h
    split at h <;> rename_i hcheck <;> obtain rfl := Option.some.inj h
    · exact .raises json n hread hcheck
    · exact .rejected json n _ hread hcheck
    · exact .join json n _ _ hread hcheck
  · simp at h

/-- How a suspended `handle_client` call goes on. -/
inductive Resumes (cfg : Config) (c : Conn) (fails : Bool) (s : State) : State → Prop
  | close (hold : s.handler c = .abort false) :
    Resumes cfg c fails s ((s.close c).setHandler c (.abort true))
  | closed (hold : s.handler c = .abort true) : Resumes cfg c fails s (s.setHandler c .finished)
  | raises (sid : SessionId) (keys rest : List String)
    (hold : s.handler c = .sendJoined sid keys rest)
    (hraises : iterationRaises keys fails (s.session sid).peers = true) :
    Resumes cfg c fails s (s.raise cfg c)
  | sendJoined (sid : SessionId) (keys rest : List String)
    (hold : s.handler c = .sendJoined sid keys rest)
    (hgoes : iterationRaises keys fails (s.session sid).peers = false) :
    Resumes cfg c fails s (s.sendJoined cfg c sid keys rest)
  | notifyOther (sid : SessionId) (other : Conn) (hold : s.handler c = .notifyOther sid other) :
    Resumes cfg c fails s ((s.writeFrame cfg c joined).setHandler c (.notifyPeer sid other))
  | notifyPeer (sid : SessionId) (other : Conn) (hold : s.handler c = .notifyPeer sid other) :
    Resumes cfg c fails s
      ((if (s.startForward sid c other).idle other then
          (s.startForward sid c other).startForward sid other c
        else s.startForward sid c other).setHandler c (.waitDone sid))
  | survivorJoined (sid : SessionId) (hold : s.handler c = .survivorJoined sid) :
    Resumes cfg c fails s ((s.startWatcher c).setHandler c (.waitDone sid))
  | waitDone (sid : SessionId) (hold : s.handler c = .waitDone sid)
    (hdone : (s.peer c).done = true) : Resumes cfg c fails s (s.onPeerDisconnect sid c)
  | joinForward (survivor : Conn) (t : TaskId) (hold : s.handler c = .joinForward survivor t)
    (hdone : s.taskDone t = true) :
    Resumes cfg c fails s ((s.startWatcher survivor).setHandler c .finished)

theorem resume_cases {fails : Bool} (h : s.resume cfg c fails = some s') :
    Resumes cfg c fails s s' := by
  cases hold : s.handler c with
  | absent | readJoin | finished => simp [resume, hold] at h
  | abort closing =>
    cases closing with
    | false =>
      obtain rfl : _ = s' := by simpa [resume, hold] using h
      exact .close hold
    | true =>
      obtain rfl : _ = s' := by simpa [resume, hold] using h
      exact .closed hold
  | sendJoined sid keys rest =>
    simp only [resume, hold] at h
    -- the dictionary may have changed since the last entry
    split_ifs at h with hraises <;> obtain rfl := Option.some.inj h
    · exact .raises sid keys rest hold hraises
    · exact .sendJoined sid keys rest hold (Bool.eq_false_iff.mpr hraises)
  | notifyOther sid other =>
    obtain rfl : _ = s' := by simpa [resume, hold] using h
    exact .notifyOther sid other hold
  | notifyPeer sid other =>
    obtain rfl : _ = s' := by simpa only [resume, hold, Option.some.injEq] using h
    exact .notifyPeer sid other hold
  | survivorJoined sid =>
    obtain rfl : _ = s' := by simpa [resume, hold] using h
    exact .survivorJoined sid hold
  | waitDone sid =>
    simp only [resume, hold] at h
    split_ifs at h with hdone
    obtain rfl := Option.some.inj h
    exact .waitDone sid hold hdone
  | joinForward survivor t =>
    simp only [resume, hold] at h
    -- `await task` goes on once the task is done
    split_ifs at h with hdone
    obtain rfl := Option.some.inj h
    exact .joinForward survivor t hold hdone

/-- How `_cancel_forward_task` goes when a peer has left its partner behind. -/
inductive Forgets (c survivor : Conn) (s : State) : State → Prop
  | watches (hnone : (s.peer survivor).forwardTask = none) :
    Forgets c survivor s ((s.startWatcher survivor).setHandler c .finished)
  | ended (t : TaskId) (ht : (s.peer survivor).forwardTask = some t)
    (hdone : s.taskDone t = true) :
    Forgets c survivor s (((s.setPeer survivor fun p =>
      { p with forwardTask := none }).startWatcher survivor).setHandler c .finished)
  | waits (t : TaskId) (ht : (s.peer survivor).forwardTask = some t)
    (hdone : s.taskDone t = false) :
    Forgets c survivor s (((s.setPeer survivor fun p =>
      { p with forwardTask := none }).cancel [t]).setHandler c (.joinForward survivor t))

theorem cancelForwardTask_cases {survivor : Conn} (h : s.cancelForwardTask c survivor = s') :
    Forgets c survivor s s' := by
  subst h
  unfold cancelForwardTask
  split
  · rename_i hnone
    exact .watches hnone
  · rename_i t ht
    simp only
    split_ifs with hdone
    · exact .ended t ht hdone
    · exact .waits t ht (Bool.eq_false_iff.mpr hdone)

/-- A `PAIRED` session without the peer `peerId`. -/
def halfBroken (peerId : String) (grace : TaskId) (sess : Session) : Session :=
  { sess with
    peers := sess.peers.pop peerId
    state := .halfBroken
    graceTask := some grace
    brokenPeerId := some peerId }

/-- `_on_peer_disconnect` in a `PAIRED` session, up to the look at the survivor. -/
def breaks (sid : SessionId) (c : Conn) (s : State) : State :=
  (((s.cancel ((s.peer c).watcherTask.toList ++ (s.peer c).forwardTask.toList)).close c).create
    (.timer .grace sid .sleeping)).setSession sid (halfBroken (s.peer c).peerId s.nextTask)

/-- `_on_peer_disconnect` in a `PAIRED` session. -/
theorem onPeerDisconnect_of_paired
    (hentry : (s.session sid).peers.get? (s.peer c).peerId = some c)
    (hstate : (s.session sid).state = .paired) :
    s.onPeerDisconnect sid c =
      match ((s.session sid).peers.pop (s.peer c).peerId).values with
      | survivor :: _ =>
        if ((s.breaks sid c).peer survivor).watcherTask.isNone then
          (s.breaks sid c).cancelForwardTask c survivor
        else (s.breaks sid c).setHandler c .finished
      | [] => (s.breaks sid c).setHandler c .finished := by
  have hpeers : ((s.breaks sid c).session sid).peers
      = (s.session sid).peers.pop (s.peer c).peerId := by
    rw [breaks, setSession_session_self]
    rfl
  rw [← hpeers]
  simp only [State.onPeerDisconnect, hentry, hstate, if_true]
  rfl

/-- How `_on_peer_disconnect` goes. -/
inductive Disconnects (sid : SessionId) (c : Conn) (s : State) : State → Prop
  | replaced (hentry : (s.session sid).peers.get? (s.peer c).peerId ≠ some c) :
    Disconnects sid c s (s.setHandler c .finished)
  | waiting (hentry : (s.session sid).peers.get? (s.peer c).peerId = some c)
    (hstate : (s.session sid).state = .waiting) :
    Disconnects sid c s ((((((s.cancel ((s.peer c).watcherTask.toList ++
      (s.peer c).forwardTask.toList)).close c).setSession sid fun sess =>
        { sess with peers := sess.peers.pop (s.peer c).peerId }).cancel
          (s.session sid).ttlTask.toList).unregister (s.session sid).code).setHandler c .finished)
  | breaks (hentry : (s.session sid).peers.get? (s.peer c).peerId = some c)
    (hstate : (s.session sid).state = .paired)
    (hwatched : ∀ survivor rest,
      ((s.session sid).peers.pop (s.peer c).peerId).values = survivor :: rest →
        ((s.breaks sid c).peer survivor).watcherTask.isNone = false) :
    Disconnects sid c s ((s.breaks sid c).setHandler c .finished)
  | survivor (survivor : Conn) {s' : State}
    (hentry : (s.session sid).peers.get? (s.peer c).peerId = some c)
    (hstate : (s.session sid).state = .paired)
    (hsurvivor : survivor ∈ ((s.session sid).peers.pop (s.peer c).peerId).values)
    (hwatcher : ((s.breaks sid c).peer survivor).watcherTask.isNone = true)
    (h : (s.breaks sid c).cancelForwardTask c survivor = s') : Disconnects sid c s s'
  | halfBroken (hentry : (s.session sid).peers.get? (s.peer c).peerId = some c)
    (hstate : (s.session sid).state = .halfBroken) :
    Disconnects sid c s (((s.cancel ((s.peer c).watcherTask.toList ++
      (s.peer c).forwardTask.toList)).close c).setHandler c .finished)

theorem onPeerDisconnect_cases (h : s.onPeerDisconnect sid c = s') :
    Disconnects sid c s s' := by
  subst h
  by_cases hentry : (s.session sid).peers.get? (s.peer c).peerId = some c
  · cases hstate : (s.session sid).state with
    | waiting =>
      simp only [onPeerDisconnect, hentry, hstate, if_true]
      exact .waiting hentry hstate
    | paired =>
      rw [onPeerDisconnect_of_paired hentry hstate]
      split
      · rename_i survivor rest hvalues
        split_ifs with hwatcher
        · exact .survivor survivor hentry hstate (hvalues ▸ List.mem_cons_self) hwatcher rfl
        · refine .breaks hentry hstate fun x rest hx => ?_
          obtain ⟨rfl, -⟩ := List.cons.inj (hvalues.symm.trans hx)
          exact Bool.eq_false_iff.mpr hwatcher
      · rename_i hnil
        exact .breaks hentry hstate fun x rest hx => by simp [hnil] at hx
    | halfBroken =>
      simp only [onPeerDisconnect, hentry, hstate, if_true]
      exact .halfBroken hentry hstate
  · simp only [onPeerDisconnect, hentry, if_false]
    exact .replaced hentry

/-- The number of bytes that a read returns. -/
def Available (p : Conn) (n : ℕ) (s : State) : Prop :=
  0 < n ∧ n ≤ 4096 ∧ (s.sock p).taken + n ≤ (s.sock p).sent.length

/-- How a read returns bytes. -/
inductive Reads (cfg : Config) (t : TaskId) (n : ℕ) (s : State) : State → Prop
  | watch (p : Conn) (hrun : s.running t = some (.watch p)) (hn : s.Available p n) :
    Reads cfg t n s (s.take p n)
  | fails (sid : SessionId) (src dst : Conn) (buffer : List UInt8)
    (hrun : s.running t = some (.forward sid src dst buffer false)) (hn : s.Available src n)
    (hfeed : feed cfg buffer ((s.sock src).chunk n) = none) :
    Reads cfg t n s ((s.take src n).readerEnds t src)
  | forward (sid : SessionId) (src dst : Conn) (buffer buffer' : List UInt8)
    (hrun : s.running t = some (.forward sid src dst buffer false)) (hn : s.Available src n)
    (hfeed : feed cfg buffer ((s.sock src).chunk n) = some buffer') :
    Reads cfg t n s (((s.take src n).write dst ((s.sock src).chunk n)).setBody t
      (.forward sid src dst buffer' true))

theorem read_cases {n : ℕ} (h : s.read cfg t n = some s') : Reads cfg t n s s' := by
  unfold read at h
  split at h
  · rename_i p hrun
    split_ifs at h with hn
    obtain rfl := Option.some.inj h
    exact .watch p hrun hn
  · rename_i sid src dst buffer hrun
    split_ifs at h with hn
    simp only at h
    split at h <;> rename_i hfeed <;> obtain rfl := Option.some.inj h
    · exact .fails sid src dst buffer hrun hn hfeed
    · exact .forward sid src dst buffer _ hrun hn hfeed
  · simp at h

/-- How a read ends its task. -/
inductive ReadEnds (t : TaskId) (contender : Option TaskId) (s : State) : State → Prop
  | closed (p : Conn) (hrun : s.running t = some (.watch p)) (hends : (s.sock p).isOpen = false) :
    ReadEnds t contender s (s.readerEnds t p)
  | contested (p : Conn) (t' : TaskId) (hrun : s.running t = some (.watch p))
    (hcontender : contender = some t') (hne : t' ≠ t)
    (hreads : (s.running t').bind Body.awaitsRead = some p) :
    ReadEnds t contender s (s.readerEnds t p)
  | forward (sid : SessionId) (src dst : Conn) (buffer : List UInt8)
    (hrun : s.running t = some (.forward sid src dst buffer false)) :
    ReadEnds t contender s (s.readerEnds t src)

theorem readEnds_cases {contender : Option TaskId} (h : s.readEnds t contender = some s') :
    ReadEnds t contender s s' := by
  unfold readEnds at h
  split at h
  · rename_i p hrun
    simp only at h
    split_ifs at h with hends
    obtain rfl := Option.some.inj h
    rcases Bool.or_eq_true_iff.mp hends with hclosed | hcontested
    · exact .closed p hrun (by simpa using hclosed)
    · cases contender with
      | none => simp at hcontested
      | some t' =>
        obtain ⟨hne, hreads⟩ : t' ≠ t ∧ (s.running t').bind Body.awaitsRead = some p := by
          simpa using hcontested
        exact .contested p t' hrun rfl hne hreads
  · rename_i sid src dst buffer hrun
    obtain rfl := Option.some.inj h
    exact .forward sid src dst buffer hrun
  · simp at h

/-- How a timer goes on. -/
inductive Expires (cfg : Config) (t : TaskId) (fails : Bool) (s : State) : State → Prop
  | wakes (k : Timer) (sid : SessionId) (hrun : s.running t = some (.timer k sid .sleeping)) :
    Expires cfg t fails s
      (s.expire cfg t k sid (s.session sid).peers.keys (s.session sid).peers.keys)
  | closes (k : Timer) (sid : SessionId) (keys rest : List String) (p : Conn)
    (hrun : s.running t = some (.timer k sid (.aborting keys rest p false))) :
    Expires cfg t fails s ((s.close p).setBody t (.timer k sid (.aborting keys rest p true)))
  | raises (k : Timer) (sid : SessionId) (keys rest : List String) (p : Conn)
    (hrun : s.running t = some (.timer k sid (.aborting keys rest p true)))
    (hraises : iterationRaises keys fails (s.session sid).peers = true) :
    Expires cfg t fails s (s.finish t)
  | next (k : Timer) (sid : SessionId) (keys rest : List String) (p : Conn)
    (hrun : s.running t = some (.timer k sid (.aborting keys rest p true)))
    (hgoes : iterationRaises keys fails (s.session sid).peers = false) :
    Expires cfg t fails s (s.expire cfg t k sid keys rest)

theorem timerStep_cases {fails : Bool} (h : s.timerStep cfg t fails = some s') :
    Expires cfg t fails s s' := by
  unfold timerStep at h
  split at h
  · rename_i k sid hrun
    obtain rfl := Option.some.inj h
    exact .wakes k sid hrun
  · rename_i k sid keys rest p hrun
    obtain rfl := Option.some.inj h
    exact .closes k sid keys rest p hrun
  · rename_i k sid keys rest p hrun
    split_ifs at h with hraises <;> obtain rfl := Option.some.inj h
    · exact .raises k sid keys rest p hrun hraises
    · exact .next k sid keys rest p hrun (Bool.eq_false_iff.mpr hraises)
  · simp at h

end State

/-- What happens at an event. -/
inductive Steps (cfg : Config) (s : State) : Event → State → Prop
  | connect (c : Conn) (hold : s.handler c = .absent) :
    Steps cfg s (.connect c) (s.setHandler c .readJoin)
  | send (c : Conn) (bs : List UInt8) (hold : s.handler c ≠ .absent)
    (hopen : (s.sock c).gone = false) :
    Steps cfg s (.send c bs)
      { s with sock := update s.sock c { s.sock c with sent := (s.sock c).sent ++ bs } }
  | drop (c : Conn) (hold : s.handler c ≠ .absent) :
    Steps cfg s (.drop c) { s with sock := update s.sock c { s.sock c with gone := true } }
  | joinFails (c : Conn) (hold : s.handler c = .readJoin) :
    Steps cfg s (.joinFails c) ((s.close c).setHandler c .finished)
  | join (c : Conn) {s' : State} (hold : s.handler c = .readJoin)
    (h : s.handleClient cfg c = some s') : Steps cfg s (.join c) s'
  | resume (c : Conn) (fails : Bool) {s' : State} (h : s.resume cfg c fails = some s') :
    Steps cfg s (.resume c fails) s'
  | read (t : TaskId) (n : ℕ) {s' : State} (h : s.read cfg t n = some s') :
    Steps cfg s (.read t n) s'
  | readEnds (t : TaskId) (contender : Option TaskId) {s' : State}
    (h : s.readEnds t contender = some s') : Steps cfg s (.readEnds t contender) s'
  | drained (t : TaskId) (sid : SessionId) (src dst : Conn) (buffer : List UInt8)
    (hrun : s.running t = some (.forward sid src dst buffer true)) :
    Steps cfg s (.drained t) (s.setBody t (.forward sid src dst buffer false))
  | writeFails (t : TaskId) (sid : SessionId) (src dst : Conn) (buffer : List UInt8)
    (hrun : s.running t = some (.forward sid src dst buffer true))
    (hclosed : (s.sock dst).isOpen = false) : Steps cfg s (.writeFails t) (s.finish t)
  | taskEnds (t : TaskId) (body : Body)
    (htask : s.task t = some { body := body, status := .cancelling }) :
    Steps cfg s (.taskEnds t) (s.finish t)
  | timer (t : TaskId) (fails : Bool) {s' : State} (h : s.timerStep cfg t fails = some s') :
    Steps cfg s (.timer t fails) s'

theorem step_cases {cfg : Config} {s s' : State} {e : Event} (h : step cfg s e = some s') :
    Steps cfg s e s' := by
  cases e with
  | connect c =>
    simp only [step] at h
    split_ifs at h with hold
    obtain rfl := Option.some.inj h
    exact .connect c hold
  | send c bs =>
    simp only [step] at h
    split_ifs at h with hrefused
    obtain rfl := Option.some.inj h
    simp only [Bool.or_eq_true, decide_eq_true_eq, not_or, Bool.not_eq_true] at hrefused
    exact .send c bs hrefused.1 hrefused.2
  | drop c =>
    simp only [step] at h
    split_ifs at h with hold
    obtain rfl := Option.some.inj h
    exact .drop c hold
  | joinFails c =>
    simp only [step] at h
    split_ifs at h with hold
    obtain rfl := Option.some.inj h
    exact .joinFails c hold
  | join c =>
    simp only [step] at h
    split_ifs at h with hold
    exact .join c hold h
  | resume c fails => exact .resume c fails h
  | read t n => exact .read t n h
  | readEnds t contender => exact .readEnds t contender h
  | drained t =>
    simp only [step, State.drained] at h
    split at h
    · rename_i sid src dst buffer hrun
      obtain rfl := Option.some.inj h
      exact .drained t sid src dst buffer hrun
    · simp at h
  | writeFails t =>
    simp only [step, State.writeFails] at h
    split at h
    · rename_i sid src dst buffer hrun
      split_ifs at h with hopen
      obtain rfl := Option.some.inj h
      -- a `drain` raises only when the other end is closed
      exact .writeFails t sid src dst buffer hrun (Bool.eq_false_iff.mpr hopen)
    · simp at h
  | taskEnds t =>
    simp only [step] at h
    split at h
    · rename_i body htask
      obtain rfl := Option.some.inj h
      exact .taskEnds t body htask
    · simp at h
  | timer t fails => exact .timer t fails h

end EmuCoop.Relay
