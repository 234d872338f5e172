import EmuCoop.Bridge.LoopLane
import EmuCoop.Fceux.DriverLane
import EmuCoop.Coop.MixedLink

/-!
# `high` records between any two machines

Two machines, each an emulator or a cartridge, seen at the address of a `high` byte: two lanes
(`EmuCoop.Bridge.LossyLanes`).

A machine that has lost an announcement forgets what it had announced when it starts anew, and
broadcasts the byte.

Four things are asked of a run (`Careful`).  The games only raise the byte, and to values that both
records take; an emulator's game also to values that the bridge finds plausible.  No driver takes a
lower value: `driver.lua` does when that brings a new bit (`EmuCoop.Fceux.driver_high_lowers`), and
`neverLowers` and `tickNeverLowers` say of a table and of a tick that none does.  No loop puts off a
broadcast that is due (`PutsOffBroadcast`): with `defer_full_poll_while_map_pending` a poll that
finds map writes parked looks at those alone, and what it should have broadcast is lost.  And the
functions of the emulator's mode leave the byte alone (`Shares.untouched`).  Everything else may
happen.

The result is not about the order in which a relay answers, or about its timing: frames other than
data are received as they come.

## Main results

- `mixed_high_converges` : when everything has arrived, and neither side has lost an update since it
  last started anew, both bytes are the highest value ever written.
-/

namespace EmuCoop.Coop

open EmuCoop.Lib
open EmuCoop.Bridge (Addr Body Mode Record CutSetup CutLink InFlight Lane LoopState LossyLanes Ram
  Round Arrival Upkeep Mergeable Takeable SettledAt bodyOf byteVal implausibleChangeReason)
open EmuCoop.Fceux (GameDriver LuaRecord OnDriver Spec sends)
open Function (update)

/-! ## Two lanes -/

namespace Machine

def byte (addr : Addr) : Machine → BitVec 8
  | .emulator d => d.mem addr
  | .cartridge b => b.session.endpoint addr

def lane (addr : Addr) : Machine → Lane
  | .emulator d => d.lane addr
  | .cartridge b => b.lane addr

/-- What always holds of a machine with a `high` record. -/
def OnLane (mode : Mode) (addr : Addr) (record : Record) : Machine → Prop
  | .emulator d => OnDriver addr (Takeable mode addr record) d
  | .cartridge b => b.OnLane mode addr record

/-- No table makes a driver take a lower value. -/
def neverLowers (spec : Spec) (addr : Addr) (ts : List Body) : Machine → Bool
  | .emulator d => Fceux.neverLowers spec addr ts d
  | .cartridge _ => true

/-- Nor does a tick. -/
def tickNeverLowers (spec : Spec) (addr : Addr) : Machine → Bool
  | .emulator d => Fceux.neverLowers spec addr d.sleepQueue
      { (d.checkFirstRunning spec).2 with sleepQueue := [] }
  | .cartridge _ => true

/-- The game of a machine may take the value: the record does, and a driver, which does not look at
plausibility itself, announces none that the bridge finds implausible. -/
def Takes (mode : Mode) (addr : Addr) (record : Record) (v : BitVec 8) : Machine → Prop
  | .emulator _ => record.condAllows (byteVal v) = true ∧
      implausibleChangeReason mode addr (byteVal v) = none
  | .cartridge _ => record.condAllows (byteVal v) = true

instance (mode : Mode) (record : Record) (v : BitVec 8) (m : Machine) :
    Decidable (m.Takes mode addr record v) := by
  cases m <;> unfold Takes <;> infer_instance

/-- No loop puts off a broadcast that is due. -/
def Prompt (cfg : CutSetup) (x : Side) (r : Round Ram) : Machine → Prop
  | .emulator _ => True
  | .cartridge b => b.Prompt cfg x r

instance (cfg : CutSetup) (x : Side) (r : Round Ram) (m : Machine) :
    Decidable (m.Prompt cfg x r) := by
  cases m <;> unfold Prompt <;> infer_instance

theorem lane_val (addr : Addr) (m : Machine) : (m.lane addr).val = m.byte addr := by
  cases m <;> rfl

end Machine

/-- The record at an address: `high`, without a mask and a single byte on both machines, which
accept the same values. -/
structure MixedSetup.Shares (cfg : MixedSetup) (addr : Addr) (record : Record) (lua : LuaRecord) :
    Prop where
  get : cfg.mode.sync.get? addr = some record
  kind : record.kind = .high
  mask : record.mask = none
  luaGet : cfg.spec.sync.get? addr = some lua
  luaKind : lua.kind = .high
  luaMask : lua.mask = none
  untouched : cfg.spec.Untouched addr lua
  accepts : ∀ v, record.condAllows v = true → lua.Accepts v

namespace MixedLink

variable {cfg : MixedSetup} {addr a : Addr} {record : Record} {lua : LuaRecord} {x : Side}
  {s s' : MixedLink} {total : ℤ}

/-- The link at an address. -/
def lossy (addr : Addr) (s : MixedLink) : LossyLanes where
  lane x := (s.machine x).lane addr
  inbox := s.inbox
  lost := s.lost

/-- The invariant of a link whose `high` record is at `addr`. -/
structure MixedInv (cfg : MixedSetup) (addr : Addr) (record : Record) (total : ℤ) (s : MixedLink) :
    Prop where
  onLane : ∀ x, (s.machine x).OnLane cfg.mode addr record
  lossy : LossyLanes.Inv addr (Takeable cfg.mode addr record) total (s.lossy addr)

/-- What the result below asks of a run: the games only raise the byte, to values that may be taken;
no driver takes a lower value; no loop puts off a broadcast that is due. -/
def Careful (cfg : MixedSetup) (addr : Addr) (record : Record) (s : MixedLink) : MixedEvent → Prop
  | .game x a v => a = addr →
    (s.machine x).byte addr ≤ v ∧ (s.machine x).Takes cfg.mode addr record v
  | .data x _ _ =>
    (s.machine x).neverLowers cfg.spec addr (((s.inbox x).take 1).map InFlight.body) = true
  | .tick x => (s.machine x).tickNeverLowers cfg.spec addr = true
  | .turn x r => (s.machine x).Prompt cfg.toCutSetup x r
  | .resync _ | .upkeep _ _ | .control _ _ | .loses _ _ => True

instance (s : MixedLink) (e : MixedEvent) : Decidable (Careful cfg addr record s e) := by
  cases e <;> unfold Careful <;> infer_instance

/-- The highest value so far. -/
def raised (addr : Addr) (total : ℤ) : MixedEvent → ℤ
  | .game _ a v => if a = addr then total ⊔ byteVal v else total
  | _ => total

/-! ## What the events keep -/

/-- A step that changes one machine: what is left of the invariant is about the lanes. -/
theorem MixedInv.of_lossy (h : MixedInv cfg addr record total s) {m : Machine} {total' : ℤ}
    (hmachine : s'.machine = update s.machine x m) (hon : m.OnLane cfg.mode addr record)
    (hlossy : LossyLanes.Inv addr (Takeable cfg.mode addr record) total'
      { lane := update (s.lossy addr).lane x (m.lane addr), inbox := s'.inbox, lost := s'.lost }) :
    MixedInv cfg addr record total' s' := by
  refine ⟨?_, ?_⟩
  · rw [hmachine]
    refine Side.forall_of_other x (by simpa using hon) ?_
    simpa using h.onLane x.other
  · have hlane : (s'.lossy addr).lane = update (s.lossy addr).lane x (m.lane addr) := by
      simp only [MixedLink.lossy, hmachine]
      exact Side.map_update _ _ _ _
    rw [← hlane] at hlossy
    exact hlossy

theorem goesOn_machine (x : Side) (m : Machine) (s : MixedLink) : (s.goesOn x m).machine x = m :=
  Function.update_self _ _ _

/-- A machine goes on, and nothing has changed on its lane. -/
theorem MixedInv.goesOn (h : MixedInv cfg addr record total s) {m : Machine}
    (hon : m.OnLane cfg.mode addr record) (hlane : m.lane addr = (s.machine x).lane addr) :
    MixedInv cfg addr record total (s.goesOn x m) := by
  refine h.of_lossy rfl hon ?_
  have hsame : update (s.lossy addr).lane x (m.lane addr) = (s.lossy addr).lane := by
    rw [hlane]
    exact Function.update_eq_self _ _
  rw [hsame]
  exact h.lossy

/-- A machine goes on, and the game has raised the byte. -/
theorem MixedInv.raises (h : MixedInv cfg addr record total s) {m : Machine} {v : BitVec 8}
    (hon : m.OnLane cfg.mode addr record) (hle : (s.machine x).byte addr ≤ v)
    (hlane : m.lane addr = { (s.machine x).lane addr with val := v }) :
    MixedInv cfg addr record (total ⊔ byteVal v) (s.goesOn x m) := by
  refine h.of_lossy rfl hon ?_
  rw [hlane]
  rw [← Machine.lane_val] at hle
  exact h.lossy.raise hle

/-- A machine goes on, and has sent bodies. -/
theorem MixedInv.sent (h : MixedInv cfg addr record total s) {m : Machine} {bodies : List Body}
    (hon : m.OnLane cfg.mode addr record)
    (hmoves : Lane.Moves ((s.machine x).lane addr) (bodies.filterMap (Body.valueFor addr))
      (m.lane addr))
    (hsendable : ∀ t ∈ bodies, Mergeable addr (Takeable cfg.mode addr record) t) :
    MixedInv cfg addr record total (s.sent x m bodies) := by
  refine h.of_lossy rfl hon ?_
  have hall : Lane.Moves ((s.lossy addr).lane x) ((bodies ++ []).filterMap (Body.valueFor addr))
      (m.lane addr) := by
    rw [List.append_nil]
    exact hmoves
  have hsent := h.lossy.send hall hsendable
  rw [List.append_nil, Function.update_eq_self] at hsent
  exact hsent

/-- A machine goes on, and has forgotten what it had announced. -/
theorem MixedInv.forgotten (h : MixedInv cfg addr record total s) {m : Machine}
    (hon : m.OnLane cfg.mode addr record)
    (hlane : m.lane addr = { (s.machine x).lane addr with cache := none, queued := [] }) :
    MixedInv cfg addr record total (s.forgotten x m) := by
  refine h.of_lossy rfl hon ?_
  rw [hlane]
  exact h.lossy.forget x

/-- The connection loses a frame. -/
theorem MixedInv.loses (h : MixedInv cfg addr record total s) {k : ℕ} {f : InFlight}
    (hf : (s.inbox x)[k]? = some f) :
    MixedInv cfg addr record total { s with
      inbox := update s.inbox x ((s.inbox x).eraseIdx k)
      lost := CutLink.losing x.other f s.lost } :=
  ⟨h.onLane, h.lossy.lose hf⟩

section Shared

variable (hshared : cfg.Shares addr record lua)

include hshared in
/-- What both machines can take is a byte that the driver's record accepts. -/
theorem accepts_of_takeable (v : ℤ) (h : Takeable cfg.mode addr record v) :
    (∃ b : BitVec 8, v = byteVal b) ∧ lua.Accepts v :=
  ⟨h.isByte, hshared.accepts v h.accepted⟩

include hshared in
/-- The game of an emulator writes. -/
theorem MixedInv.game_emulator (h : MixedInv cfg addr record total s) {d : GameDriver}
    (hmachine : s.machine x = .emulator d) {v : BitVec 8}
    (hok : Careful cfg addr record s (.game x a v)) (hstep : s.step cfg (.game x a v) = some s') :
    MixedInv cfg addr record (raised addr total (.game x a v)) s' := by
  have hon : OnDriver addr (Takeable cfg.mode addr record) d := by
    simpa [hmachine, Machine.OnLane] using h.onLane x
  let d₁ : GameDriver := { d with mem := update d.mem a v }
  -- the byte is written, and then the driver is called back
  have hwritten : MixedInv cfg addr record (raised addr total (.game x a v))
      (s.goesOn x (.emulator d₁)) := by
    by_cases ha : a = addr
    · subst ha
      obtain ⟨hle, htakes⟩ := hok rfl
      rw [hmachine] at hle htakes
      obtain ⟨hcond, hplaus⟩ := htakes
      obtain ⟨hon₁, hlane₁⟩ := hon.raise hle ⟨⟨v, rfl⟩, hplaus, hcond⟩
      rw [raised, if_pos rfl]
      apply h.raises (m := .emulator d₁) hon₁
      · rw [hmachine]
        exact hle
      · rw [hmachine]
        exact hlane₁
    · have hkeeps := Fceux.keeps_mem (d := d) ha v
      rw [raised, if_neg ha]
      apply h.goesOn (m := .emulator d₁) (hkeeps.onDriver hon)
      rw [hmachine]
      exact hkeeps.lane
  have hon₁ : OnDriver addr (Takeable cfg.mode addr record) d₁ := by
    simpa [MixedLink.goesOn, Machine.OnLane] using hwritten.onLane x
  have hdoes := Fceux.writeCallback_does hshared.luaGet hshared.luaKind hshared.luaMask
    hshared.untouched (accepts_of_takeable hshared) hon₁ a
  have hsent : MixedInv cfg addr record (raised addr total (.game x a v))
      ((s.goesOn x (.emulator d₁)).sent x (.emulator (d₁.writeCallback cfg.spec a).2)
        (sends (d₁.writeCallback cfg.spec a).1)) := by
    apply hwritten.sent
    · exact hdoes.onDriver
    · rw [goesOn_machine]
      exact hdoes.moves
    · exact fun t ht => (hdoes.news t ht).sendable
  simp only [MixedLink.step, hmachine, answered, Option.some.injEq] at hstep
  subst hstep
  simpa [MixedLink.sent, MixedLink.goesOn] using hsent

/-- The game of a cartridge writes. -/
theorem MixedInv.game_cartridge (h : MixedInv cfg addr record total s) {b : LoopState Ram}
    (hmachine : s.machine x = .cartridge b) {v : BitVec 8}
    (hok : Careful cfg addr record s (.game x a v)) (hstep : s.step cfg (.game x a v) = some s') :
    MixedInv cfg addr record (raised addr total (.game x a v)) s' := by
  have hon : b.OnLane cfg.mode addr record := by
    simpa [hmachine, Machine.OnLane] using h.onLane x
  simp only [MixedLink.step, hmachine, Option.some.injEq] at hstep
  subst hstep
  by_cases ha : a = addr
  · subst ha
    obtain ⟨hle, htakes⟩ := hok rfl
    rw [hmachine] at hle htakes
    obtain ⟨hon', hlane⟩ := LoopState.write_lane hon hle htakes
    rw [raised, if_pos rfl]
    apply h.raises (m := .cartridge (b.write a v)) hon'
    · rw [hmachine]
      exact hle
    · rw [hmachine]
      exact hlane
  · obtain ⟨hon', hlane⟩ := LoopState.write_elsewhere hon ha v
    rw [raised, if_neg ha]
    apply h.goesOn (m := .cartridge (b.write a v)) hon'
    rw [hmachine]
    exact hlane

include hshared in
/-- A driver handles the next table. -/
theorem MixedInv.data_emulator (h : MixedInv cfg addr record total s) {d : GameDriver}
    (hmachine : s.machine x = .emulator d) {now : ℚ} {ok : Bool}
    (hok : Careful cfg addr record s (.data x now ok))
    (hstep : s.step cfg (.data x now ok) = some s') : MixedInv cfg addr record total s' := by
  have hon : OnDriver addr (Takeable cfg.mode addr record) d := by
    simpa [hmachine, Machine.OnLane] using h.onLane x
  cases hinbox : s.inbox x with
  | nil => simp [MixedLink.step, hinbox] at hstep
  | cons f rest =>
    simp only [MixedLink.step, hinbox, receive, hmachine] at hstep
    cases hhandled : d.handleTable cfg.spec f.body with
    | error e => simp [hhandled, answered] at hstep
    | ok p =>
      obtain ⟨out, d'⟩ := p
      simp only [hhandled, answered, Option.some.injEq] at hstep
      subst hstep
      have hsendable := h.lossy.sendable x f (by simp [MixedLink.lossy, hinbox])
      have hlower : Fceux.neverLowers cfg.spec addr [f.body] d = true := by
        simpa [Careful, hmachine, hinbox, Machine.neverLowers] using hok
      obtain ⟨hon', hnews, l, hmoves, hreceives⟩ := Fceux.handleTable_does hshared.luaGet
        hshared.luaKind hshared.luaMask hshared.untouched (accepts_of_takeable hshared) hon
        hsendable hlower hhandled
      have hlane : (s.lossy addr).lane x = d.lane addr := by
        simp [MixedLink.lossy, hmachine, Machine.lane]
      -- what it sends is sent before the table is taken
      have hall : Lane.Moves ((s.lossy addr).lane x)
          ((sends out ++ []).filterMap (Body.valueFor addr)) l := by
        rw [List.append_nil, hlane]
        exact hmoves
      have hsent := h.lossy.send hall fun t ht => (hnews t ht).sendable
      have hnext : (update (s.lossy addr).inbox x.other ((s.lossy addr).inbox x.other ++
          (sends out).map fun body => { body := body })) x = f :: rest := by
        rw [Function.update_of_ne (Side.ne_other x)]
        exact hinbox
      have hreceived := hsent.receive hnext (l := d'.lane addr) (by simpa using hreceives)
      refine h.of_lossy (x := x) (m := .emulator d') rfl hon' ?_
      simp only [Function.update_idem, List.append_nil, Function.update_eq_self] at hreceived
      have hcomm : update (update s.inbox x rest) x.other (s.inbox x.other ++
          (sends out).map fun body => { body := body }) = update (update s.inbox x.other
            (s.inbox x.other ++ (sends out).map fun body => { body := body })) x rest :=
        Function.update_comm (Side.ne_other x) _ _ _
      simp only [MixedLink.sent, Function.update_of_ne (Side.other_ne x), hcomm]
      exact hreceived

include hshared in
/-- A loop receives the next data frame. -/
theorem MixedInv.data_cartridge (h : MixedInv cfg addr record total s) {b : LoopState Ram}
    (hmachine : s.machine x = .cartridge b) {now : ℚ} {ok : Bool}
    (hstep : s.step cfg (.data x now ok) = some s') : MixedInv cfg addr record total s' := by
  have hon : b.OnLane cfg.mode addr record := by
    simpa [hmachine, Machine.OnLane] using h.onLane x
  cases hinbox : s.inbox x with
  | nil => simp [MixedLink.step, hinbox] at hstep
  | cons f rest =>
    simp only [MixedLink.step, hinbox, receive, hmachine, Option.some.injEq] at hstep
    subst hstep
    have hlane : (s.machine x).lane addr = b.lane addr := by rw [hmachine]; rfl
    by_cases hestablished : b.pipe.state = .established
    · have hsendable := h.lossy.sendable x f (by simp [MixedLink.lossy, hinbox])
      obtain ⟨hon', hreceives⟩ := LoopState.receive_lane (x := x) hshared.get hshared.kind
        hshared.mask hestablished hon hsendable now ok
      rw [if_pos hestablished]
      rw [← hlane] at hreceives
      exact h.of_lossy (x := x) (m := .cartridge _) rfl hon' (h.lossy.receive hinbox hreceives)
    -- the frame is thrown away
    · rw [if_neg hestablished]
      have hfirst : (s.inbox x)[0]? = some f := by simp [hinbox]
      have hlost : MixedInv cfg addr record total
          { s with inbox := update s.inbox x rest, lost := CutLink.losing x.other f s.lost } := by
        simpa [hinbox] using h.loses hfirst
      have hsession := LoopState.receive_idle cfg.toCutSetup x hestablished f.body now ok
      apply hlost.goesOn (m := .cartridge _)
      · exact hon.of_session hsession
      · exact (LoopState.lane_of_session hsession).trans hlane.symm

include hshared in
/-- A driver's tick. -/
theorem MixedInv.tick (h : MixedInv cfg addr record total s)
    (hok : Careful cfg addr record s (.tick x)) (hstep : s.step cfg (.tick x) = some s') :
    MixedInv cfg addr record total s' := by
  cases hmachine : s.machine x with
  | cartridge b => simp [MixedLink.step, hmachine] at hstep
  | emulator d =>
    have hon : OnDriver addr (Takeable cfg.mode addr record) d := by
      simpa [hmachine, Machine.OnLane] using h.onLane x
    simp only [MixedLink.step, hmachine] at hstep
    cases hticked : d.childTick cfg.spec with
    | error e => simp [hticked, answered] at hstep
    | ok p =>
      obtain ⟨out, d'⟩ := p
      simp only [hticked, answered, Option.some.injEq] at hstep
      subst hstep
      have hlower : Fceux.neverLowers cfg.spec addr d.sleepQueue
          { (d.checkFirstRunning cfg.spec).2 with sleepQueue := [] } = true := by
        simpa [Careful, hmachine, Machine.tickNeverLowers] using hok
      have hdoes := Fceux.childTick_does hshared.luaGet hshared.luaKind hshared.luaMask
        hshared.untouched (accepts_of_takeable hshared) hon hlower hticked
      apply h.sent (m := .emulator d')
      · exact hdoes.onDriver
      · rw [hmachine]
        exact hdoes.moves
      · exact fun t ht => (hdoes.news t ht).sendable

include hshared in
/-- A loop takes its turn. -/
theorem MixedInv.turn (h : MixedInv cfg addr record total s) {r : Round Ram}
    (hok : Careful cfg addr record s (.turn x r)) (hstep : s.step cfg (.turn x r) = some s') :
    MixedInv cfg addr record total s' := by
  cases hmachine : s.machine x with
  | emulator d => simp [MixedLink.step, hmachine] at hstep
  | cartridge b =>
    have hon : b.OnLane cfg.mode addr record := by
      simpa [hmachine, Machine.OnLane] using h.onLane x
    have hprompt : b.Prompt cfg.toCutSetup x r := by
      simpa [Careful, hmachine, Machine.Prompt] using hok
    simp only [MixedLink.step, hmachine, Option.some.injEq] at hstep
    subst hstep
    obtain ⟨hon', hmoves, hsendable⟩ :=
      LoopState.turn_lane (x := x) (r := r) hshared.get hshared.kind hshared.mask hon hprompt
    obtain ⟨-, rest, hsaid⟩ := LoopState.turn_turned (cfg.config x) r b
    rw [hsaid] at hmoves hsendable
    have hlane : (s.lossy addr).lane x = b.lane addr := by
      simp [MixedLink.lossy, hmachine, Machine.lane]
    have hlost : (s.turn cfg x r b).lost = update s.lost x (s.lost x ++ rest) := by
      simp [MixedLink.turn, hsaid, MixedLink.sent]
    have hmoved : (s.turn cfg x r b).machine
        = update s.machine x (.cartridge (b.turn (cfg.config x) r).1) := rfl
    apply h.of_lossy hmoved hon'
    rw [hlost]
    rw [← hlane] at hmoves
    exact h.lossy.send hmoves fun t ht => hsendable t (List.mem_append_left _ ht)

/-- A driver forgets what it has sent. -/
theorem MixedInv.resync (h : MixedInv cfg addr record total s)
    (hstep : s.step cfg (.resync x) = some s') : MixedInv cfg addr record total s' := by
  cases hmachine : s.machine x with
  | cartridge b => simp [MixedLink.step, hmachine] at hstep
  | emulator d =>
    have hon : OnDriver addr (Takeable cfg.mode addr record) d := by
      simpa [hmachine, Machine.OnLane] using h.onLane x
    simp only [MixedLink.step, hmachine, Option.some.injEq] at hstep
    subst hstep
    obtain ⟨hon', hlane⟩ := hon.resync
    apply h.forgotten (m := .emulator d.resync) hon'
    rw [hmachine]
    exact hlane

/-- A loop looks after its pipe. -/
theorem MixedInv.upkeep (h : MixedInv cfg addr record total s) {u : Upkeep}
    (hstep : s.step cfg (.upkeep x u) = some s') : MixedInv cfg addr record total s' := by
  cases hmachine : s.machine x with
  | emulator d => simp [MixedLink.step, hmachine] at hstep
  | cartridge b =>
    have hon : b.OnLane cfg.mode addr record := by
      simpa [hmachine, Machine.OnLane] using h.onLane x
    simp only [MixedLink.step, hmachine, Option.some.injEq] at hstep
    subst hstep
    have hsession := LoopState.upkeep_session u b
    apply h.goesOn (m := .cartridge (b.upkeep u)) (hon.of_session hsession)
    rw [hmachine]
    exact LoopState.lane_of_session hsession

/-- A loop receives a frame that is no data frame. -/
theorem MixedInv.control (h : MixedInv cfg addr record total s) {a : Arrival}
    (hstep : s.step cfg (.control x a) = some s') : MixedInv cfg addr record total s' := by
  cases hmachine : s.machine x with
  | emulator d => simp [MixedLink.step, hmachine] at hstep
  | cartridge b =>
    have hon : b.OnLane cfg.mode addr record := by
      simpa [hmachine, Machine.OnLane] using h.onLane x
    simp only [MixedLink.step, hmachine, MixedLink.control] at hstep
    split_ifs at hstep with hdata hframe
    · obtain rfl := Option.some.inj hstep
      obtain ⟨hon', hlane⟩ := LoopState.control_lane cfg.toCutSetup x (a := a)
        (by simpa using hdata) hon
      rw [if_pos hframe] at hlane
      apply h.forgotten (m := .cartridge _) hon'
      rw [hmachine]
      exact hlane
    · obtain rfl := Option.some.inj hstep
      obtain ⟨hon', hlane⟩ := LoopState.control_lane cfg.toCutSetup x (a := a)
        (by simpa using hdata) hon
      rw [if_neg hframe] at hlane
      apply h.goesOn (m := .cartridge _) hon'
      rw [hmachine]
      exact hlane

include hshared in
/-- **What every event keeps.** -/
theorem MixedInv.step (h : MixedInv cfg addr record total s) {e : MixedEvent}
    (hok : Careful cfg addr record s e) (hstep : s.step cfg e = some s') :
    MixedInv cfg addr record (raised addr total e) s' := by
  cases e with
  | game x a v =>
    cases hmachine : s.machine x with
    | emulator d => exact h.game_emulator hshared hmachine hok hstep
    | cartridge b => exact h.game_cartridge hmachine hok hstep
  | data x now ok =>
    cases hmachine : s.machine x with
    | emulator d => exact h.data_emulator hshared hmachine hok hstep
    | cartridge b => exact h.data_cartridge hshared hmachine hstep
  | tick x => exact h.tick hshared hok hstep
  | resync x => exact h.resync hstep
  | upkeep x u => exact h.upkeep hstep
  | control x a => exact h.control hstep
  | turn x r => exact h.turn hshared hok hstep
  | loses x k =>
    simp only [MixedLink.step] at hstep
    cases hf : (s.inbox x)[k]? with
    | none => simp [hf] at hstep
    | some f =>
      rw [hf] at hstep
      obtain rfl := Option.some.inj hstep
      exact h.loses hf

end Shared

end MixedLink

/-! ## The start and the end of a run -/

namespace Machine

/-- A machine whose byte is known to its partner. -/
def Fresh (addr : Addr) (b : BitVec 8) : Machine → Prop
  | .emulator d => d.mem addr = b ∧ d.cache addr = some (byteVal b) ∧ d.didCache = true ∧
      d.sleepQueue = []
  | .cartridge l => l.session.endpoint addr = b ∧
      l.session.engine.cache addr = some (byteVal b) ∧ l.session.engine.resyncSendQueue = [] ∧
      l.session.engine.sleepQueue = [] ∧ ∀ gate, l.session.engine.mapWriteGate = some gate →
        gate.pending.get? addr = none

/-- A machine that has nothing left to do: a driver that has sent its byte, or a loop of which a
poll says nothing of the byte and leaves the lane as it is. -/
def Idle (cfg : MixedSetup) (addr : Addr) (x : Side) (now : ℚ) : Machine → Prop
  | .emulator d => d.didCache = true ∧ d.cache addr = some (byteVal (d.mem addr)) ∧
      ∀ t ∈ d.sleepQueue, t.valueFor addr = none
  | .cartridge l => SettledAt cfg.mode addr (cfg.defers x) now l.session.engine l.session.endpoint

instance (cfg : MixedSetup) (addr : Addr) (x : Side) (now : ℚ) (m : Machine) :
    Decidable (m.Idle cfg addr x now) := by
  cases m <;> unfold Idle <;> infer_instance

variable {cfg : MixedSetup} {addr : Addr} {record : Record} {lua : LuaRecord} {x : Side}
  {b : BitVec 8} {m : Machine}

/-- A fresh machine, as a lane. -/
theorem Fresh.onLane (h : m.Fresh addr b) (htakes : m.Takes cfg.mode addr record b) :
    m.OnLane cfg.mode addr record ∧
      m.lane addr = { val := b, cache := some (byteVal b), queued := [], parked := [] } := by
  cases m with
  | emulator d =>
    obtain ⟨hval, hcache, hdid, hparked⟩ := h
    refine ⟨⟨fun k hk => ?_, fun hcold => ?_, fun _ => by simp [hcache], ?_, ?_⟩, ?_⟩
    · obtain rfl : byteVal b = k := Option.some.inj (hcache.symm.trans hk)
      exact ⟨b, rfl, by rw [hval]; exact BitVec.le_refl b⟩
    · simp [hdid] at hcold
    · simp [hparked]
    · rw [hval]
      exact ⟨⟨b, rfl⟩, htakes.2, htakes.1⟩
    · simp [lane, GameDriver.lane, hval, hcache, hdid, hparked]
  | cartridge l =>
    obtain ⟨hval, hcache, hqueued, hparked, hungated⟩ := h
    refine ⟨⟨fun k hk => ?_, fun hcold => ?_, hungated, ?_, ?_, ?_⟩, ?_⟩
    · obtain rfl : byteVal b = k := Option.some.inj (hcache.symm.trans hk)
      exact ⟨b, rfl, by rw [hval]; exact BitVec.le_refl b⟩
    · simp [hcache] at hcold
    · simp [hqueued]
    · simp [hparked]
    · rw [hval]
      exact htakes
    · simp [lane, LoopState.lane, Bridge.SyncEngine.lane, hval, hcache, hqueued, hparked]

/-- A machine that has nothing left to do, as a lane. -/
theorem Idle.settled {now : ℚ} (hshared : cfg.Shares addr record lua)
    (h : m.Idle cfg addr x now) (hon : m.OnLane cfg.mode addr record) : (m.lane addr).Settled := by
  cases m with
  | emulator d =>
    obtain ⟨hdid, hcache, hparked⟩ := h
    refine ⟨by simp [lane, GameDriver.lane, hdid, hcache], rfl, ?_⟩
    rw [lane, GameDriver.lane, List.filterMap_eq_nil_iff]
    exact hparked
  | cartridge l => exact Bridge.poll_settled hshared.get hshared.kind hshared.mask hon h

end Machine

namespace MixedLink

variable {cfg : MixedSetup} {addr : Addr} {record : Record} {lua : LuaRecord} {x : Side}
  {s s' : MixedLink} {b : BitVec 8} {es : List MixedEvent}

/-- The two machines agree about the byte, and nothing is on its way. -/
structure Begins (cfg : MixedSetup) (addr : Addr) (record : Record) (b : BitVec 8) (s : MixedLink) :
    Prop where
  fresh : ∀ x, (s.machine x).Fresh addr b
  takes : ∀ x, (s.machine x).Takes cfg.mode addr record b
  inbox : ∀ x, s.inbox x = []

/-- Nothing is in flight to a side, and its machine has nothing left to do. -/
def Settled (cfg : MixedSetup) (addr : Addr) (x : Side) (s : MixedLink) : Prop :=
  s.inbox x = [] ∧ ∃ now, (s.machine x).Idle cfg addr x now

/-- The highest value of a run that starts with `b`. -/
def highestOf (addr : Addr) (b : BitVec 8) (es : List MixedEvent) : ℤ :=
  es.foldl (raised addr) (byteVal b)

theorem Begins.inv (h : Begins cfg addr record b s) :
    MixedInv cfg addr record (byteVal b) s := by
  have hlane : ∀ x, (s.lossy addr).lane x
      = { val := b, cache := some (byteVal b), queued := [], parked := [] } := fun x =>
    ((h.fresh x).onLane (h.takes x)).2
  refine ⟨fun x => ((h.fresh x).onLane (h.takes x)).1, .of_agreed ?_ ?_ ?_ ?_ h.inbox⟩
  all_goals
    intro x
    rw [hlane x]

/-- **Convergence between any two machines.**  Two machines, each an emulator or a cartridge, agree
about an unmasked `high` byte.  Then their games raise it, any frames are lost, machines forget what
they had announced and send it again, games pause, updates for other addresses come and go.  When
everything has arrived, and no update of the byte was lost since its sender last started anew, both
bytes are the highest value ever written. -/
theorem mixed_high_converges (hshared : cfg.Shares addr record lua)
    (hbegins : Begins cfg addr record b s)
    (hrun : Run (MixedLink.step cfg) (Careful cfg addr record) s es s')
    (hsettled : ∀ x, Settled cfg addr x s')
    (hlost : ∀ x, ∀ t ∈ s'.lost x, t.valueFor addr = none) (x : Side) :
    byteVal ((s'.machine x).byte addr) = highestOf addr b es := by
  have hinv : MixedInv cfg addr record (highestOf addr b es) s' := by
    refine Run.invariant (motive := fun es s => MixedInv cfg addr record (highestOf addr b es) s)
      hbegins.inv ?_ hrun
    intro es s e s' hinv hok hstep
    rw [highestOf, List.foldl_append]
    exact hinv.step hshared hok hstep
  have hlane : ∀ y, ((s'.lossy addr).lane y).Settled := by
    intro y
    obtain ⟨-, now, hidle⟩ := hsettled y
    exact hidle.settled hshared (hinv.onLane y)
  have hconverged := hinv.lossy.converged hlane (fun y => (hsettled y).1) hlost x
  rw [← Machine.lane_val]
  exact hconverged

/-! ## A cut -/

/-- A mode file with the one byte goes with any mode of the bridge. -/
theorem shares_byteSpec {cfg : CutSetup} (hget : cfg.mode.sync.get? addr = some record)
    (hkind : record.kind = .high) (hmask : record.mask = none) :
    MixedSetup.Shares { cfg with spec := Fceux.byteSpec addr } addr record { kind := .high } where
  get := hget
  kind := hkind
  mask := hmask
  luaGet := by simp [Fceux.byteSpec, Dict.get?]
  luaKind := rfl
  luaMask := rfl
  untouched :=
    { toUndisturbed := Fceux.byteSpec_undisturbed addr
      startup := fun f hf => by simp [Fceux.byteSpec] at hf
      tick := fun f hf => by simp [Fceux.byteSpec] at hf
      bytes := fun a r hr _ => by
        rw [(Fceux.byteSpec_get hr).2]
        rfl }
  accepts v _ mem := rfl

/-- An emulator and a cartridge in a mode with a single `high` byte. -/
def mixedSetup : MixedSetup where
  toCutSetup := CutLink.cutSetup
  spec := Fceux.soloSpec

/-- The two agree that the byte is 1. -/
def mixedStart : MixedLink where
  machine
    | .a => .emulator
        { mem := fun _ => 1, cache := fun a => if a = 0 then some 1 else none, didCache := true }
    | .b => .cartridge (CutLink.cutStart.loop .b)
  inbox _ := []
  lost _ := []

/-- The emulator's update is on its way when the cartridge's socket is cut.  The bridge reconnects,
and the handshake is complete when the driver is told to resync.  Meanwhile the other player has
raised the byte, too. -/
def mixedEvents : List MixedEvent :=
  [.game .a 0 5, .loses .b 0, .upkeep .b (.fail 0), .upkeep .b (.reconnect 2 true true),
    .control .b (CutLink.cutArrival .joined),
    .control .b (CutLink.cutArrival (.hello (some Fceux.protocolVersion))), .resync .a, .tick .a,
    .game .b 0 9, .turn .b CutLink.cutRound, .data .b 3 true, .data .a 3 true,
    .turn .b CutLink.cutRound]

/-- **An update of the emulator is lost, and the bytes agree all the same.** -/
theorem mixed_high_converges_lost :
    ∃ s, Run (MixedLink.step mixedSetup) (Careful mixedSetup 0 { kind := .high }) mixedStart
        mixedEvents s ∧ ∀ x, byteVal ((s.machine x).byte 0) = 9 := by
  have hbegins : Begins mixedSetup 0 { kind := .high } 1 mixedStart := by
    refine ⟨fun x => ?_, fun x => ?_, fun x => rfl⟩
    · cases x with
      | a => exact ⟨rfl, rfl, rfl, rfl⟩
      | b => exact ⟨rfl, rfl, rfl, rfl, fun gate h => by simp [CutLink.cutStart] at h⟩
    · cases x with
      | a => exact ⟨rfl, rfl⟩
      | b => exact rfl
  -- Every condition of the run and its end, evaluated event by event.
  have hcheck : (mixedEvents.foldlM (fun s e =>
      if decide (Careful mixedSetup 0 { kind := .high } s e) then MixedLink.step mixedSetup s e
      else none) mixedStart).any (fun s => [Side.a, .b].all fun x => (s.inbox x).isEmpty &&
        decide ((s.machine x).Idle mixedSetup 0 x 4) &&
        (s.lost x).all fun t => (t.valueFor 0).isNone) = true := by
    decide +kernel
  obtain ⟨s, hrun, hs⟩ := Run.exists_of_check (fun _ _ h => of_decide_eq_true h) hcheck
  have hx : ∀ x, s.inbox x = [] ∧ (s.machine x).Idle mixedSetup 0 x 4 ∧
      ∀ t ∈ s.lost x, t.valueFor 0 = none := by
    intro x
    have hx := List.all_eq_true.mp hs x (by cases x <;> simp)
    simp only [Bool.and_eq_true, List.isEmpty_iff, decide_eq_true_eq, List.all_eq_true,
      Option.isNone_iff_eq_none] at hx
    exact ⟨hx.1.1, hx.1.2, hx.2⟩
  exact ⟨s, hrun, mixed_high_converges (shares_byteSpec rfl rfl rfl) hbegins hrun
    (fun x => ⟨(hx x).1, 4, (hx x).2.1⟩) fun x => (hx x).2.2⟩

end MixedLink

end EmuCoop.Coop
