import EmuCoop.Bridge.LossyLanes

/-!
# One high byte of a loop

A loop of the bridge (`EmuCoop.Bridge.CutLink`) at the address of an unmasked `high` record.  Its
pipe does not matter to the lane, but for whether it is `ESTABLISHED`.

## Main results

- `receive_lane`, `control_lane`, `turn_lane` : what the parts of a round do on the lane.
-/

namespace EmuCoop.Bridge

open EmuCoop.Lib
open EmuCoop.Fceux (Frame)

def LoopState.lane (addr : Addr) (b : LoopState Ram) : Lane :=
  b.session.engine.lane addr b.session.endpoint

/-- What always holds of a loop with such a record. -/
def LoopState.OnLane (mode : Mode) (addr : Addr) (record : Record) (b : LoopState Ram) : Prop :=
  Bridge.OnLane mode addr record b.session.engine b.session.endpoint

namespace LoopState

variable {cfg : CutSetup} {addr a : Addr} {record : Record} {x : Side} {b b' : LoopState Ram}

/-- The session says all there is to say about a lane. -/
theorem lane_of_session (h : b'.session = b.session) : b'.lane addr = b.lane addr := by
  simp [lane, h]

theorem OnLane.of_session {mode : Mode} (hon : b.OnLane mode addr record)
    (h : b'.session = b.session) : b'.OnLane mode addr record := by
  rw [OnLane, h]
  exact hon

/-- Looking after the pipe leaves the session alone. -/
theorem upkeep_session (u : Upkeep) (b : LoopState Ram) : (b.upkeep u).session = b.session := by
  cases u with
  | reconnect =>
    simp only [upkeep, reconnect]
    split_ifs <;> rfl
  | recvEnds | fail | heartbeat => rfl

/-- The game raises the byte. -/
theorem write_lane {mode : Mode} (hon : b.OnLane mode addr record) {v : BitVec 8}
    (hle : b.session.endpoint addr ≤ v) (hcond : record.condAllows (byteVal v) = true) :
    (b.write addr v).OnLane mode addr record ∧
      (b.write addr v).lane addr = { b.lane addr with val := v } :=
  Bridge.OnLane.raise hon hle hcond

/-- The game writes another byte. -/
theorem write_elsewhere {mode : Mode} (hon : b.OnLane mode addr record) (ha : a ≠ addr)
    (v : BitVec 8) :
    (b.write a v).OnLane mode addr record ∧ (b.write a v).lane addr = b.lane addr := by
  have hval : (b.write a v).session.endpoint addr = b.session.endpoint addr := by
    simp [write, Ne.symm ha]
  exact ⟨Bridge.OnLane.congr hon hval rfl rfl, SyncEngine.lane_congr hval rfl rfl rfl⟩

/-- `on_data` is the same in all three loops. -/
theorem onData_eq (loop : Loop) (mode : Mode) (now : ℚ) (body : Body) (session : SyncSession Ram) :
    loop.onData mode dictEndpoint now body session = session.onData mode dictEndpoint now body := by
  cases loop <;> rfl

/-- A pipe that is not `ESTABLISHED` throws away what it receives. -/
theorem receive_idle (cfg : CutSetup) (x : Side) (hidle : b.pipe.state ≠ .established) (body : Body)
    (now : ℚ) (sends : Bool) :
    (b.receive (cfg.config x) { frame := .data body, now, sends }).1.session = b.session := by
  simp [receive, move, hidle]

section Lane

variable (hget : cfg.mode.sync.get? addr = some record) (hkind : record.kind = .high)
  (hmask : record.mask = none)

include hget hkind hmask in
/-- **What an `ESTABLISHED` loop does with a data frame.** -/
theorem receive_lane (hestablished : b.pipe.state = .established)
    (hon : b.OnLane cfg.mode addr record) {body : Body}
    (hbody : Mergeable addr (Takeable cfg.mode addr record) body) (now : ℚ) (sends : Bool) :
    (b.receive (cfg.config x) { frame := .data body, now, sends }).1.OnLane cfg.mode addr record ∧
      (b.lane addr).Receives addr body
        ((b.receive (cfg.config x) { frame := .data body, now, sends }).1.lane addr) := by
  have hsession : (b.receive (cfg.config x) { frame := .data body, now, sends }).1.session
      = b.session.onData cfg.mode dictEndpoint now body := by
    rw [receive, move, ← onData_eq (cfg.loop x)]
    simp [hestablished, CutSetup.config]
  generalize (b.receive (cfg.config x) { frame := .data body, now, sends }).1 = b' at hsession ⊢
  unfold LoopState.OnLane LoopState.lane
  rw [hsession, SyncSession.onData]
  split_ifs with hhello
  · refine ⟨hon, .other (Option.eq_none_iff_forall_ne_some.mpr fun v hv => ?_)⟩
    rw [(hbody.fits v hv).1] at hhello
    exact absurd hhello (Option.some_ne_none _).symm
  · obtain ⟨hon', hcases⟩ := handled_lane hget hkind hmask hon (fun v hv => (hbody.fits v hv).2)
      (handleTableResult_handled cfg.mode dictEndpoint body true false now b.session.engine
        b.session.endpoint)
    refine ⟨hon', ?_⟩
    rcases hcases with ⟨hlane, hnone⟩ | ⟨v, hv, -, hlane⟩ | ⟨c, hc, hlane⟩
    · exact hlane ▸ .other hnone
    · exact hlane ▸ .park hv
    · exact hlane ▸ .take hc

/-- **A frame that is no data frame**: a reconnected partner makes the loop forget what it had
announced; nothing else touches the engine. -/
theorem control_lane (cfg : CutSetup) (x : Side) {a : Arrival}
    (hcontrol : (bodyOf a.frame).isSome = false)
    (hon : b.OnLane cfg.mode addr record) :
    (b.receive (cfg.config x) a).1.OnLane cfg.mode addr record ∧
      (b.receive (cfg.config x) a).1.lane addr =
        if a.frame = .partnerReconnected then { b.lane addr with cache := none, queued := [] }
        else b.lane addr := by
  by_cases hframe : a.frame = .partnerReconnected
  · have hsession : (b.receive (cfg.config x) a).1.session.engine = resync b.session.engine ∧
        (b.receive (cfg.config x) a).1.session.endpoint = b.session.endpoint := by
      rw [receive, move, hframe]
      simp only [CutSetup.config]
      cases cfg.loop x <;> exact ⟨rfl, rfl⟩
    obtain ⟨hon', hlane⟩ := Bridge.OnLane.resync hon
    rw [if_pos hframe, LoopState.OnLane, LoopState.lane, hsession.1, hsession.2]
    exact ⟨hon', hlane⟩
  · have hsession : (b.receive (cfg.config x) a).1.session = b.session := by
      rw [receive, move]
      cases hcase : a.frame <;> simp_all [bodyOf]
    rw [if_neg hframe]
    exact ⟨hon.of_session hsession, lane_of_session hsession⟩

/-- What a turn says of the byte. -/
theorem valueFor_said (addr : Addr) {mode : Mode} {version : String} {hello : List Body}
    (hhello : ∀ body ∈ hello, body = Body.hello mode version) (out : List (Addr × ℤ)) :
    (hello ++ out.map fun c => Body.update c.1 c.2).filterMap (Body.valueFor addr)
      = valuesAt addr out := by
  have hnone : hello.filterMap (Body.valueFor addr) = [] := by
    rw [List.filterMap_eq_nil_iff]
    intro body hbody
    rw [hhello body hbody]
    rfl
  rw [List.filterMap_append, hnone, List.nil_append]
  induction out with
  | nil => rfl
  | cons c out ih =>
    obtain ⟨a, v⟩ := c
    by_cases ha : a = addr
    · simpa [Body.valueFor, Body.update, valuesAt, ha] using ih
    · simpa [Body.valueFor, Body.update, valuesAt, ha] using ih

/-- A turn says hello, and sends updates. -/
theorem turned_op {r : Round Ram} {said : List Body} {engine : SyncEngine} {ram : Ram}
    (h : Turned (cfg.config x) r b said engine ram) :
    ∀ body ∈ said, body.op = none ∨ body.op = some "hello" ∧ body.addr = none := by
  have hgreets : ∀ {hello : List Body}, (∀ body ∈ hello, body = Body.hello cfg.mode
      (cfg.version x)) → ∀ body ∈ hello, body.op = some "hello" ∧ body.addr = none := by
    intro hello hhello body hbody
    rw [hhello body hbody]
    exact ⟨rfl, rfl⟩
  cases h with
  | silent hhello => exact fun body hbody => .inr (hgreets hhello body hbody)
  | polled hstate hhello =>
    intro body hbody
    rcases List.mem_append.mp hbody with hbody | hbody
    · exact .inr (hgreets hhello body hbody)
    · obtain ⟨c, -, rfl⟩ := List.mem_map.mp hbody
      exact .inl rfl

/-- The loop does not put off a broadcast that is due. -/
def Prompt (cfg : CutSetup) (x : Side) (r : Round Ram) (b : LoopState Ram) : Prop :=
  b.pipe.state = .established →
    ¬ PutsOffBroadcast cfg.mode (cfg.defers x) r.pollNow b.session.engine b.session.endpoint

instance (r : Round Ram) (b : LoopState Ram) : Decidable (Prompt cfg x r b) :=
  inferInstanceAs (Decidable (_ → _))

include hget hkind hmask in
/-- **What a turn does on the lane.** -/
theorem turn_lane {r : Round Ram} (hon : b.OnLane cfg.mode addr record)
    (hok : Prompt cfg x r b) :
    (b.turn (cfg.config x) r).1.OnLane cfg.mode addr record ∧
      Lane.Moves (b.lane addr)
        ((b.saidIn (b.turn (cfg.config x) r).1).filterMap (Body.valueFor addr))
        ((b.turn (cfg.config x) r).1.lane addr) ∧
      ∀ body ∈ b.saidIn (b.turn (cfg.config x) r).1,
        Mergeable addr (Takeable cfg.mode addr record) body := by
  obtain ⟨hturned, -⟩ := turn_turned (cfg.config x) r b
  have hop := turned_op hturned
  generalize b.saidIn (b.turn (cfg.config x) r).1 = said at hturned hop ⊢
  obtain ⟨hon', hmoves, htakeable⟩ : (b.turn (cfg.config x) r).1.OnLane cfg.mode addr record ∧
      Lane.Moves (b.lane addr) (said.filterMap (Body.valueFor addr))
        ((b.turn (cfg.config x) r).1.lane addr) ∧
      ∀ v ∈ said.filterMap (Body.valueFor addr), Takeable cfg.mode addr record v := by
    unfold LoopState.OnLane LoopState.lane
    generalize (b.turn (cfg.config x) r).1.session.engine = engine at hturned ⊢
    generalize (b.turn (cfg.config x) r).1.session.endpoint = ram at hturned ⊢
    cases hturned with
    -- the loop says at most its hello, which has no value for the address
    | silent hhello =>
      have hnone := valueFor_said addr hhello []
      rw [List.map_nil, List.append_nil] at hnone
      rw [hnone]
      exact ⟨hon, .rest _, fun v hv => absurd hv List.not_mem_nil⟩
    -- it polls: then the lane does what a poll does
    | polled hstate hhello =>
      have hacts := poll_acts hget hkind hmask hon (hok hstate)
      rw [valueFor_said addr hhello]
      exact ⟨hacts.onLane, hacts.moves, hacts.takeable⟩
  refine ⟨hon', hmoves, fun body hbody => ⟨(hop body hbody).imp_right And.left, fun v hv => ⟨?_,
    htakeable v (List.mem_filterMap.mpr ⟨body, hbody, hv⟩)⟩⟩⟩
  rcases hop body hbody with hnone | ⟨-, haddr⟩
  · exact hnone
  · simp [Body.valueFor, haddr] at hv

end Lane

end LoopState

end EmuCoop.Bridge
