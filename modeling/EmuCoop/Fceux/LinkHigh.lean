import Mathlib.Order.Lattice.Nat
import Mathlib.Tactic.Linarith
import EmuCoop.Lib.Replica
import EmuCoop.Lib.Run
import EmuCoop.Fceux.Parity

/-!
# `high` records between two emulators

Two `GameDriver`s of one mode, connected by two first-in first-out channels.  A game writes a value
and its driver is called back at once (`caughtWrite`); tables are delivered one by one through
`handleTable`.  A driver never has an unsent change: its cache is its memory.

## The defect

"Take the higher value" is tested with `AND(maskedValue, ·)`, which asks whether the value has a bit
the previous one lacks.  A lower value may have one, and then overwrites a higher one
(`driver_high_lowers`).

## The result

When no table brings a lower value with such a bit (`TakesHigher`), memory never drops and the two
sides agree on the highest value ever written: `driver_high_converges`.
-/

namespace EmuCoop.Fceux

open EmuCoop.Lib
open EmuCoop.Bridge (Addr Body Kind byteVal byteVal_nonneg byteVal_lt)
open Function (update)

/-! ## Reading and writing memory -/

section Memory

variable {mem : Mem} {addr a : Addr} {value : ℤ}

theorem readBytes_nonneg (mem : Mem) (addr : Addr) (n : ℕ) : 0 ≤ readBytes mem addr n := by
  induction n generalizing addr with
  | zero => exact le_rfl
  | succ n ih =>
    have hbyte := byteVal_nonneg (mem addr)
    have hrest := ih (addr + 1)
    simp only [readBytes]
    omega

theorem readBytes_lt (mem : Mem) (addr : Addr) (n : ℕ) : readBytes mem addr n < 256 ^ n := by
  induction n generalizing addr with
  | zero => exact one_pos
  | succ n ih =>
    have hbyte := byteVal_lt (mem addr)
    have hrest := ih (addr + 1)
    simp only [readBytes]
    rw [pow_succ]
    omega

/-- Bytes only depend on the memory they are read from. -/
theorem readBytes_congr {mem' : Mem} {n : ℕ}
    (h : ∀ b, addr ≤ b → b < addr + n → mem' b = mem b) :
    readBytes mem' addr n = readBytes mem addr n := by
  induction n generalizing addr with
  | zero => rfl
  | succ n ih =>
    have hlt : addr < addr + ((n + 1 : ℕ) : ℤ) := Int.lt_add_of_pos_right _ (by positivity)
    simp only [readBytes]
    rw [h addr le_rfl hlt, ih]
    intro b hb hb'
    refine h b (le_trans (Int.le_add_one le_rfl) hb) ?_
    push_cast
    linarith

/-- Writing leaves the bytes below and above alone. -/
theorem writeBytes_of_outside {n : ℕ} {b : Addr} (h : b < addr ∨ addr + n ≤ b) :
    writeBytes mem addr value n b = mem b := by
  induction n generalizing addr value with
  | zero => rfl
  | succ n ih =>
    push_cast at h
    have hne : b ≠ addr := by
      rintro rfl
      rcases h with h | h
      · exact lt_irrefl _ h
      · linarith [Int.natCast_nonneg n]
    simp only [writeBytes]
    rw [Function.update_of_ne hne, ih]
    rcases h with h | h
    · exact .inl (h.trans (Int.lt_add_one_iff.mpr le_rfl))
    · exact .inr (by linarith)

/-- What was written is read. -/
theorem readBytes_writeBytes (mem : Mem) (addr : Addr) (n : ℕ) {value : ℤ} (h₀ : 0 ≤ value)
    (h : value < 256 ^ n) : readBytes (writeBytes mem addr value n) addr n = value := by
  induction n generalizing addr value with
  | zero =>
    simp only [pow_zero] at h
    simp only [readBytes]
    omega
  | succ n ih =>
    have hdiv : value / 256 < 256 ^ n := by
      rw [pow_succ] at h
      exact Int.ediv_lt_of_lt_mul (by norm_num) h
    have hrest : readBytes (writeBytes mem addr value (n + 1)) (addr + 1) n
        = readBytes (writeBytes mem (addr + 1) (value / 256) n) (addr + 1) n := by
      refine readBytes_congr fun b hb _ => ?_
      have hne : b ≠ addr := by
        rintro rfl
        exact absurd hb (not_le.mpr (Int.lt_add_one_iff.mpr le_rfl))
      simp only [writeBytes]
      rw [Function.update_of_ne hne]
    simp only [readBytes]
    rw [hrest, ih (addr + 1) (Int.ediv_nonneg h₀ (by norm_num)) hdiv]
    simp only [writeBytes, Function.update_self, byteVal, BitVec.toNat_ofInt]
    omega

/-- The bytes of a size. -/
theorem two_pow_bytes (size : Size) : (2 : ℤ) ^ (8 * size.bytes) = 256 ^ size.bytes := by
  rw [pow_mul]
  norm_num

/-- A value read from memory is in the range of the record. -/
theorem inRange_memoryRead (record : LuaRecord) (mem : Mem) (addr : Addr) :
    record.InRange (memoryRead mem addr record.size) := by
  refine ⟨readBytes_nonneg _ _ _, ?_⟩
  rw [two_pow_bytes]
  exact readBytes_lt _ _ _

end Memory

/-! ## The system -/

/-- Two drivers and the tables in flight. -/
structure DriverLink where
  driver : Side → GameDriver
  /-- The tables in flight *to* a side, oldest first. -/
  inbox : Side → List Body

inductive DriverEvent where
  /-- The game writes a value, and the driver is called back if the address is synced. -/
  | write (x : Side) (a : Addr) (value : ℤ)
  /-- A side handles the oldest table in flight to it. -/
  | deliver (x : Side)

/-- The tables among the outputs of a driver. -/
def sends (out : List Output) : List Body :=
  out.filterMap fun o => match o with
    | .send t => some t
    | .abort _ | .message _ => none

/-- The number of bytes a write to an address covers: those of its record, or one. -/
def Spec.bytesAt (spec : Spec) (a : Addr) : ℕ :=
  match spec.sync.get? a with
  | some record => (record.size.getD .one).bytes
  | none => 1

namespace DriverLink

/-- A write of the game, before the driver is called back. -/
def poke (spec : Spec) (x : Side) (a : Addr) (value : ℤ) (s : DriverLink) : GameDriver :=
  { s.driver x with mem := writeBytes (s.driver x).mem a value (spec.bytesAt a) }

def step (spec : Spec) (s : DriverLink) : DriverEvent → Option DriverLink
  | .write x a value =>
    let (out, d) := match spec.sync.get? a with
      | some record => (s.poke spec x a value).caughtWrite spec a record record.size
      | none => ([], s.poke spec x a value)
    some
      { driver := update s.driver x d
        inbox := update s.inbox x.other (s.inbox x.other ++ sends out) }
  | .deliver x =>
    match s.inbox x with
    | [] => none
    | t :: rest =>
      match (s.driver x).handleTable spec t with
      | .error _ => none
      | .ok (out, d) => some
          { driver := update s.driver x d
            inbox := update (update s.inbox x rest) x.other (s.inbox x.other ++ sends out) }

/-- Two drivers at the start: equal memories, caches equal to the memory, nothing in flight. -/
def start (spec : Spec) (mem : Mem) : DriverLink where
  driver _ :=
    { mem := mem
      cache := fun a => (spec.sync.get? a).map fun record => memoryRead mem a record.size
      didCache := true }
  inbox _ := []

def value (addr : Addr) (record : LuaRecord) (s : DriverLink) (x : Side) : ℤ :=
  memoryRead (s.driver x).mem addr record.size

/-- The value for an address the next delivery to a side brings, if it brings one. -/
def arriving (addr : Addr) (s : DriverLink) (x : Side) : Option ℤ :=
  (s.inbox x).head?.bind (Body.valueFor addr)

/-- The game is running whenever a driver asks. -/
def Running (spec : Spec) (s : DriverLink) : DriverEvent → Prop
  | .write x a value => (s.poke spec x a value).isRunning spec = true
  | .deliver x => (s.driver x).isRunning spec = true

/-- The games only raise the record's value. -/
def RaisesOnly (addr : Addr) (record : LuaRecord) (s : DriverLink) : DriverEvent → Prop
  | .write x a v => a = addr → record.InRange v ∧ s.value addr record x ≤ v
  | .deliver _ => True

end DriverLink

/-! ## The condition -/

/-- The bits a value has and another lacks. -/
def newBits (value previousValue : ℤ) : BitVec 32 := word value &&& ~~~word previousValue

/-- Bytes that no function of a mode file writes behind the driver's back, and no other record
shares. -/
structure Spec.Undisturbed (spec : Spec) (addr : Addr) (record : LuaRecord) : Prop where
  apart : ∀ a r, spec.sync.get? a = some r → a ≠ addr →
    ∀ b, addr ≤ b → b < addr + (record.size.getD .one).bytes →
      b < a ∨ a + (r.size.getD .one).bytes ≤ b
  writeTrigger : ∀ a r f, spec.sync.get? a = some r → r.writeTrigger = some f →
    ∀ v p mem, memoryRead (f v p mem) addr record.size = memoryRead mem addr record.size
  receiveTrigger : ∀ a r f, spec.sync.get? a = some r → r.receiveTrigger = some f →
    ∀ v p mem, memoryRead (f v p mem) addr record.size = memoryRead mem addr record.size

/-- The condition: a table that brings a lower value brings no bit the memory lacks; a raise does
not set the sign bit of the word; the record's `cond` accepts the values written; and writes of the
game elsewhere do not reach into the record's bytes. -/
def TakesHigher (spec : Spec) (addr : Addr) (record : LuaRecord) (s : DriverLink) :
    DriverEvent → Prop
  | .write x a v =>
    (a = addr → (newBits v (s.value addr record x)).msb = false ∧
      ∀ mem, performTest mem record.cond (some v) record.size = true) ∧
    (spec.sync.get? a = none →
      ∀ b, addr ≤ b → b < addr + (record.size.getD .one).bytes → b ≠ a)
  | .deliver x => ∀ v, s.arriving addr x = some v →
    (v ≤ s.value addr record x → newBits v (s.value addr record x) = 0#32) ∧
    (s.value addr record x < v → (newBits v (s.value addr record x)).msb = false)

/-! ## The record's test -/

section Test

variable {record : LuaRecord} {value previousValue : ℤ}

/-- What `recordChanged` says about an unmasked `high` record. -/
theorem recordChanged_high (hkind : record.kind = .high) (hmask : record.mask = none)
    (hvalue : record.InRange value) (mem : Mem) (receiving : Bool) :
    recordChanged mem record value previousValue receiving
      = (decide (0 < (newBits value previousValue).toInt) &&
          performTest mem record.cond (some value) record.size, some value) := by
  have hgained : record.gained value previousValue = newBits value previousValue := by
    rw [LuaRecord.gained, sizeMask_and_word hmask hvalue, newBits]
  have houtside : record.lostOutside value previousValue = 0#32 := by
    simp [LuaRecord.lostOutside, LuaRecord.outsideWord, hmask]
  have htest := driver_high_iff hvalue previousValue
  rw [hgained, houtside, BitVec.toInt_zero] at htest
  have hmv := (maskedValue_of_unmasked hmask value previousValue).1
  rw [hmv] at htest
  simp [recordChanged, LuaRecord.kindChanged, hkind, hmv, htest]

/-- A value without new bits is no higher. -/
theorem le_of_newBits_eq_zero (hvalue : record.InRange value)
    (hprev : record.InRange previousValue) (h : newBits value previousValue = 0#32) :
    value ≤ previousValue := by
  have hsub : word value = word value &&& word previousValue := by
    refine BitVec.eq_of_getLsbD_eq fun i hi => ?_
    have hbit := congrArg (BitVec.getLsbD · i) h
    simp only [newBits, BitVec.getLsbD_and, BitVec.getLsbD_not, hi, BitVec.getLsbD_zero] at hbit ⊢
    grind
  have hle : (word value).toNat ≤ (word previousValue).toNat := by
    rw [hsub, BitVec.toNat_and]
    exact Nat.and_le_right
  rw [← toNat_word hvalue.1 hvalue.lt_word, ← toNat_word hprev.1 hprev.lt_word]
  exact_mod_cast hle

/-- A higher value that does not set the sign bit passes the test. -/
theorem newBits_pos (hvalue : record.InRange value) (hprev : record.InRange previousValue)
    (hlt : previousValue < value) (hmsb : (newBits value previousValue).msb = false) :
    0 < (newBits value previousValue).toInt := by
  have hne : newBits value previousValue ≠ 0#32 := fun h =>
    absurd (le_of_newBits_eq_zero hvalue hprev h) (not_le.mpr hlt)
  rw [BitVec.toInt_eq_toNat_of_msb hmsb]
  have hnat : (newBits value previousValue).toNat ≠ 0 := fun h =>
    hne (BitVec.eq_of_toNat_eq (by simpa using h))
  omega

end Test

/-! ## The driver, seen at one address -/

/-- What a driver holds about a record: its value is the one it has cached. -/
structure Tracks (addr : Addr) (record : LuaRecord) (v : ℤ) (d : GameDriver) : Prop where
  read : memoryRead d.mem addr record.size = v
  cached : d.cache addr = some v
  didCache : d.didCache = true

section Driver

variable {spec : Spec} {addr a : Addr} {record r : LuaRecord} {d d' : GameDriver} {v p : ℤ}
  {out : List Output} {t : Body}

@[simp] theorem sends_nil : sends [] = [] := rfl

@[simp] theorem sends_messages {α : Type} (f : α → String) (l : List α) :
    sends (l.map fun n => .message (f n)) = [] := by
  simp [sends]

theorem checkFirstRunning_of_didCache (h : d.didCache = true) :
    d.checkFirstRunning spec = ([], d) := by
  simp [GameDriver.checkFirstRunning, h]

/-- A `writeTrigger` does not touch an undisturbed record. -/
theorem Tracks.fireWriteTrigger (ht : Tracks addr record v d) (hund : spec.Undisturbed addr record)
    (hget : spec.sync.get? a = some r) (w : ℤ) (q : Option ℤ) :
    Tracks addr record v (d.fireWriteTrigger r w q) := by
  unfold GameDriver.fireWriteTrigger
  cases hwt : r.writeTrigger with
  | none => exact ht
  | some f =>
    exact ⟨(hund.writeTrigger a r f hget hwt w q d.mem).trans ht.read, ht.cached, ht.didCache⟩

/-- Nor does a `receiveTrigger`. -/
theorem Tracks.fireReceiveTrigger (ht : Tracks addr record v d)
    (hund : spec.Undisturbed addr record) (hget : spec.sync.get? a = some r) (w : Option ℤ)
    (q : ℤ) : Tracks addr record v (d.fireReceiveTrigger r w q) := by
  unfold GameDriver.fireReceiveTrigger
  cases hrt : r.receiveTrigger with
  | none => exact ht
  | some f =>
    exact ⟨(hund.receiveTrigger a r f hget hrt w q d.mem).trans ht.read, ht.cached, ht.didCache⟩

/-- A raise of the record is cached and sent. -/
theorem caughtWrite_self (hget : spec.sync.get? addr = some record) (hkind : record.kind = .high)
    (hmask : record.mask = none) (hund : spec.Undisturbed addr record)
    (hrun : d.isRunning spec = true) (hdid : d.didCache = true) (hcached : d.cache addr = some p)
    (hread : memoryRead d.mem addr record.size = v) (hprev : record.InRange p) (hle : p ≤ v)
    (hmsb : (newBits v p).msb = false)
    (hcond : ∀ mem, performTest mem record.cond (some v) record.size = true) :
    Tracks addr record v (d.caughtWrite spec addr record record.size).2 ∧
      sends (d.caughtWrite spec addr record record.size).1
        = if p < v then [Body.update addr v] else [] := by
  have hrange : record.InRange v := hread ▸ inRange_memoryRead record d.mem addr
  -- after the trigger the value is the one written, while the cache still holds the previous one
  have hfired : memoryRead (d.fireWriteTrigger record v (some p)).mem addr record.size = v ∧
      (d.fireWriteTrigger record v (some p)).cache addr = some p ∧
      (d.fireWriteTrigger record v (some p)).didCache = true := by
    unfold GameDriver.fireWriteTrigger
    cases hwt : record.writeTrigger with
    | none => exact ⟨hread, hcached, hdid⟩
    | some f =>
      exact ⟨(hund.writeTrigger addr record f hget hwt v (some p) d.mem).trans hread, hcached, hdid⟩
  obtain ⟨hread', hcached', hdid'⟩ := hfired
  unfold GameDriver.caughtWrite
  simp only [hrun, if_true, checkFirstRunning_of_didCache hdid, hcached, hread,
    recordChanged_high hkind hmask hrange, hcond, Bool.and_true, decide_eq_true_eq, hkind]
  rcases hle.lt_or_eq with hlt | rfl
  · rw [if_pos (newBits_pos hrange hprev hlt hmsb), if_pos hlt]
    exact ⟨⟨hread', by simp, hdid'⟩, rfl⟩
  · have hzero : ¬0 < (newBits p p).toInt := by simp [newBits]
    rw [if_neg hzero, if_neg (lt_irrefl p)]
    exact ⟨⟨hread', by simpa using hcached', hdid'⟩, rfl⟩

/-- A write elsewhere sends nothing for the record and leaves it alone. -/
theorem caughtWrite_other (ha : a ≠ addr) (hget : spec.sync.get? a = some r)
    (hund : spec.Undisturbed addr record) (ht : Tracks addr record v d) (size : Option Size) :
    Tracks addr record v (d.caughtWrite spec a r size).2 ∧
      ∀ t ∈ sends (d.caughtWrite spec a r size).1, t.op = none ∧ t.addr = some a := by
  unfold GameDriver.caughtWrite
  cases hrun : d.isRunning spec with
  | false => simpa using ht
  | true =>
    simp only [if_true, checkFirstRunning_of_didCache ht.didCache]
    have hfired := ht.fireWriteTrigger hund hget (memoryRead d.mem a size) (d.cache a)
    -- whatever is cached is cached at `a`
    have hupdated : ∀ w, Tracks addr record v
        { d.fireWriteTrigger r (memoryRead d.mem a size) (d.cache a) with
          cache := update (d.fireWriteTrigger r (memoryRead d.mem a size)
            (d.cache a)).cache a w } := by
      intro w
      refine ⟨hfired.read, ?_, hfired.didCache⟩
      simpa [Function.update_of_ne (Ne.symm ha)] using hfired.cached
    split_ifs
    · exact ⟨hupdated _, by simp [sends]⟩
    · exact ⟨hupdated _, by simp⟩
    · exact ⟨hfired, by simp⟩

/-- What `memoryWrite` does to an address. -/
theorem memoryWrite_eq_ok {w : ℤ} {size : Option Size} (h : memoryWrite a w size d = .ok d') :
    d'.mem = writeBytes d.mem a w (size.getD .one).bytes ∧ d'.didCache = d.didCache ∧
      d'.cache = if (d.cache a).isSome then update d.cache a (some w) else d.cache := by
  unfold memoryWrite at h
  cases hc : d.cache a with
  | none =>
    simp only [hc] at h
    obtain rfl := Except.ok.inj h
    simp
  | some q =>
    cases hs : d.cacheSize a with
    | none =>
      simp only [hc, hs] at h
      obtain rfl := Except.ok.inj h
      simp
    | some previous =>
      simp only [hc, hs] at h
      split_ifs at h
      obtain rfl := Except.ok.inj h
      simp

/-- Applying a table to another record leaves this one alone. -/
theorem applyTable_other (hund : spec.Undisturbed addr record) (ht : Tracks addr record v d)
    (hne : a ≠ addr) (hget : spec.sync.get? a = some r)
    (h : GameDriver.applyTable a r t [] d = .ok (out, d')) :
    Tracks addr record v d' ∧ sends out = [] := by
  obtain ⟨fired, hfire, hres⟩ := GameDriver.applyTable_cases h
  have hfired : Tracks addr record v fired := by
    rcases hfire with rfl | ⟨value, previousValue, rfl⟩
    · exact ht
    · exact ht.fireReceiveTrigger hund hget _ _
  rcases hres with ⟨rfl, rfl⟩ | ⟨value, text, named, hwrite, rfl⟩
  · exact ⟨hfired, rfl⟩
  · obtain ⟨hmem, hdid, hcache⟩ := memoryWrite_eq_ok hwrite
    refine ⟨⟨?_, ?_, ?_⟩, sends_messages _ _⟩
    · rw [hmem, ← hfired.read, memoryRead, memoryRead]
      exact readBytes_congr fun b hb hb' =>
        writeBytes_of_outside (hund.apart a r hget hne b hb hb')
    · rw [hcache]
      split_ifs
      · rw [Function.update_of_ne (Ne.symm hne)]
        exact hfired.cached
      · exact hfired.cached
    · rw [hdid]
      exact hfired.didCache

/-- A table for the record takes the higher value. -/
theorem handleTable_self (hget : spec.sync.get? addr = some record) (hkind : record.kind = .high)
    (hmask : record.mask = none) (hund : spec.Undisturbed addr record)
    (ht : Tracks addr record p d) (hrun : d.isRunning spec = true) (hop : t.op = none)
    (haddr : t.addr = some addr) (hval : t.value = some v) (hrange : record.InRange v)
    (hlow : v ≤ p → newBits v p = 0#32) (hmsb : p < v → (newBits v p).msb = false)
    (hcond : ∀ mem, performTest mem record.cond (some v) record.size = true)
    (h : d.handleTable spec t = .ok (out, d')) :
    Tracks addr record (max p v) d' ∧ sends out = [] := by
  have hprev : record.InRange p := ht.read ▸ inRange_memoryRead record d.mem addr
  simp only [GameDriver.handleTable, hop, hrun, if_true,
    checkFirstRunning_of_didCache ht.didCache, haddr, hget, GameDriver.applyTable, hval, ht.read,
    recordChanged_high hkind hmask hrange, hcond, Bool.and_true, hkind, Bool.or_false] at h
  -- a higher value has new bits, so that it is allowed
  by_cases hlt : p < v
  · have hpos := newBits_pos hrange hprev hlt (hmsb hlt)
    simp only [hpos, decide_true, if_true] at h
    cases hw : memoryWrite addr v record.size (d.fireReceiveTrigger record (some v) p) with
    | error e => simp [hw, Except.map] at h
    | ok d'' =>
      obtain ⟨hmem, hdid, hcache⟩ := memoryWrite_eq_ok hw
      have hfired := ht.fireReceiveTrigger hund hget (some v) p
      simp only [hw, Except.map, List.nil_append, Except.ok.injEq, Prod.mk.injEq] at h
      obtain ⟨rfl, rfl⟩ := h
      rw [max_eq_right hlt.le]
      refine ⟨⟨?_, ?_, ?_⟩, sends_messages _ _⟩
      · rw [hmem, memoryRead]
        exact readBytes_writeBytes _ _ _ hrange.1 (two_pow_bytes _ ▸ hrange.2)
      · rw [hcache, hfired.cached]
        simp
      · rw [hdid]
        exact hfired.didCache
  -- no new bits: the table is passed over
  · have hzero : ¬0 < (newBits v p).toInt := by
      rw [hlow (not_lt.mp hlt)]
      decide
    simp only [hzero, decide_false, Bool.false_eq_true, if_false, Except.ok.injEq,
      Prod.mk.injEq] at h
    obtain ⟨rfl, rfl⟩ := h
    rw [max_eq_left (not_lt.mp hlt)]
    exact ⟨ht, rfl⟩

/-- A table for another address leaves the record alone. -/
theorem handleTable_other (hund : spec.Undisturbed addr record) (ht : Tracks addr record v d)
    (hrun : d.isRunning spec = true) (hop : t.op = none) (haddr : t.addr ≠ some addr)
    (h : d.handleTable spec t = .ok (out, d')) :
    Tracks addr record v d' ∧ sends out = [] := by
  simp only [GameDriver.handleTable, hop, hrun, if_true,
    checkFirstRunning_of_didCache ht.didCache, List.nil_append] at h
  cases ha : t.addr with
  | none =>
    simp only [ha, Except.ok.injEq, Prod.mk.injEq] at h
    obtain ⟨rfl, rfl⟩ := h
    exact ⟨ht, rfl⟩
  | some a =>
    have hne : a ≠ addr := fun h => haddr (by rw [ha, h])
    cases hget : spec.sync.get? a with
    | none =>
      simp only [ha, hget, Except.ok.injEq, Prod.mk.injEq] at h
      obtain ⟨rfl, rfl⟩ := h
      exact ⟨ht, rfl⟩
    | some r =>
      simp only [ha, hget] at h
      exact applyTable_other hund ht hne hget h

end Driver

/-! ## Two drivers as two replicas -/

section Runs

variable {spec : Spec} {addr : Addr} {record : LuaRecord} {s s' : DriverLink} {x : Side}
  {mem : Mem} {es : List DriverEvent}

/-- The numbers tables carry for an address. -/
def valuesFor (addr : Addr) (l : List Body) : List ℕ :=
  (l.filterMap (Body.valueFor addr)).map Int.toNat

theorem valuesFor_append (l l' : List Body) :
    valuesFor addr (l ++ l') = valuesFor addr l ++ valuesFor addr l' := by
  simp [valuesFor]

/-- What two drivers hold about a `high` record, as two replicas of a number with everything
settled. -/
def DriverLink.replicas (addr : Addr) (record : LuaRecord) (total : ℕ) (s : DriverLink) :
    Replicas ℕ where
  val y := (s.value addr record y).toNat
  settled y := (s.value addr record y).toNat
  inbox y := valuesFor addr (s.inbox y)
  total := total

/-- The highest value so far, after one more event. -/
def raiseBy (addr : Addr) (total : ℕ) : DriverEvent → ℕ
  | .write _ a v => if a = addr then total ⊔ v.toNat else total
  | .deliver _ => total

/-- The highest value the games have ever written to the record, given its value at first. -/
def highestWritten (addr : Addr) (record : LuaRecord) (mem : Mem) (es : List DriverEvent) : ℕ :=
  es.foldl (raiseBy addr) (memoryRead mem addr record.size).toNat

/-- The invariant: drivers track the record, tables in flight carry values in range that the
record's `cond` accepts, and the two values are sound replicas. -/
structure DriverInv (addr : Addr) (record : LuaRecord) (total : ℕ) (s : DriverLink) : Prop where
  tracks : ∀ y, Tracks addr record (s.value addr record y) (s.driver y)
  inFlight : ∀ y, ∀ t ∈ s.inbox y, t.op = none ∧ ∀ v, t.valueFor addr = some v →
    record.InRange v ∧ ∀ mem, performTest mem record.cond (some v) record.size = true
  sound : (s.replicas addr record total).Sound

theorem DriverInv.start (hget : spec.sync.get? addr = some record) (mem : Mem) :
    DriverInv addr record (memoryRead mem addr record.size).toNat (DriverLink.start spec mem) := by
  refine ⟨fun y => ⟨rfl, ?_, rfl⟩, ?_, ?_⟩
  · simp [DriverLink.start, DriverLink.value, hget]
  · simp [DriverLink.start]
  · exact Replicas.sound_init (memoryRead mem addr record.size).toNat

/-- One side's new value, as a function of the side. -/
private theorem value_update {d : GameDriver} {inbox : Side → List Body} :
    (fun y => (DriverLink.value addr record ⟨update s.driver x d, inbox⟩ y).toNat)
      = update (fun y => (s.value addr record y).toNat) x
          (memoryRead d.mem addr record.size).toNat :=
  Side.map_update (fun d : GameDriver => (memoryRead d.mem addr record.size).toNat) s.driver x d

/-- A driver that tracks the record among the two of a link. -/
private theorem tracks_update {d : GameDriver} {inbox : Side → List Body} {v : ℤ}
    (h : ∀ y, Tracks addr record (s.value addr record y) (s.driver y))
    (hd : Tracks addr record v d) (y : Side) :
    Tracks addr record (DriverLink.value addr record ⟨update s.driver x d, inbox⟩ y)
      (update s.driver x d y) := by
  by_cases hy : y = x
  · subst hy
    have hval : DriverLink.value addr record ⟨update s.driver y d, inbox⟩ y = v := by
      simpa [DriverLink.value] using hd.read
    rw [hval, Function.update_self]
    exact hd
  · have hval : DriverLink.value addr record ⟨update s.driver x d, inbox⟩ y
        = s.value addr record y := by
      simp [DriverLink.value, hy]
    rw [hval, Function.update_of_ne hy]
    exact h y

/-- A write of the record: the game raises the value and the driver announces it. -/
theorem DriverInv.write_self {total : ℕ} (hinv : DriverInv addr record total s)
    (hget : spec.sync.get? addr = some record) (hkind : record.kind = .high)
    (hmask : record.mask = none) (hund : spec.Undisturbed addr record) {v : ℤ}
    (hrun : (s.poke spec x addr v).isRunning spec = true)
    (hraise : record.InRange v ∧ s.value addr record x ≤ v)
    (hmsb : (newBits v (s.value addr record x)).msb = false)
    (hcond : ∀ mem, performTest mem record.cond (some v) record.size = true)
    (h : s.step spec (.write x addr v) = some s') :
    DriverInv addr record (total ⊔ v.toNat) s' := by
  obtain ⟨hrange, hle⟩ := hraise
  have htracks := hinv.tracks x
  have hread : memoryRead (s.poke spec x addr v).mem addr record.size = v := by
    simp only [DriverLink.poke, Spec.bytesAt, hget, memoryRead]
    exact readBytes_writeBytes _ _ _ hrange.1 (two_pow_bytes _ ▸ hrange.2)
  have hprev : record.InRange (s.value addr record x) := inRange_memoryRead record _ addr
  obtain ⟨hd, hsent⟩ := caughtWrite_self (d := s.poke spec x addr v) hget hkind hmask hund hrun
    htracks.didCache htracks.cached hread hprev hle hmsb hcond
  simp only [DriverLink.step, hget, Option.some.injEq] at h
  subst h
  refine ⟨tracks_update hinv.tracks hd, ?_, ?_⟩
  · refine Side.forall_of_other x (by simpa using hinv.inFlight x) ?_
    intro t ht
    simp only [Function.update_self, hsent, List.mem_append] at ht
    rcases ht with ht | ht
    · exact hinv.inFlight x.other t ht
    · split_ifs at ht
      · obtain rfl : t = Body.update addr v := by simpa using ht
        refine ⟨rfl, fun w hw => ?_⟩
        obtain rfl : v = w := by simpa [Body.valueFor, Body.update] using hw
        exact ⟨hrange, hcond⟩
      · simp at ht
  · have hmax : (s.value addr record x).toNat ⊔ v.toNat = v.toNat :=
      sup_eq_right.mpr (Int.toNat_le_toNat hle)
    have hraised := hinv.sound.raise x v.toNat
    simp only [DriverLink.replicas, hmax] at hraised
    simp only [DriverLink.replicas, value_update, hd.read, hsent]
    -- a greater value is announced, the same one is not
    by_cases hlt : s.value addr record x < v
    · have hann := hraised.announce x v.toNat v.toNat (by simp) le_sup_right
      have hvalues : valuesFor addr [Body.update addr v] = [v.toNat] := by
        simp [valuesFor, Body.valueFor, Body.update]
      simpa [Side.map_update, hlt, valuesFor_append, hvalues] using hann
    · obtain rfl : s.value addr record x = v := le_antisymm hle (not_lt.mp hlt)
      simpa [Function.update_eq_self] using hraised

/-- A side whose record keeps its value leaves the replicas as they are. -/
private theorem replicas_of_same {total : ℕ} {d : GameDriver} {inbox : Side → List Body}
    (hd : Tracks addr record (s.value addr record x) d)
    (hinbox : ∀ y, valuesFor addr (inbox y) = valuesFor addr (s.inbox y)) :
    DriverLink.replicas addr record total ⟨update s.driver x d, inbox⟩
      = s.replicas addr record total := by
  simp only [DriverLink.replicas, value_update, hd.read, hinbox, Function.update_eq_self]

/-- A write elsewhere leaves the record alone. -/
theorem DriverInv.write_other {total : ℕ} (hinv : DriverInv addr record total s)
    (hund : spec.Undisturbed addr record) {a : Addr} (ha : a ≠ addr) {v : ℤ}
    (hout : spec.sync.get? a = none →
      ∀ b, addr ≤ b → b < addr + (record.size.getD .one).bytes → b ≠ a)
    (h : s.step spec (.write x a v) = some s') : DriverInv addr record total s' := by
  have htracks := hinv.tracks x
  -- the bytes written are not the record's
  have hpoked : Tracks addr record (s.value addr record x) (s.poke spec x a v) := by
    refine ⟨?_, htracks.cached, htracks.didCache⟩
    refine readBytes_congr fun b hb hb' => writeBytes_of_outside ?_
    unfold Spec.bytesAt
    -- an address that is not synced is not watched; for another record the driver sends its own
    -- value
    cases hget : spec.sync.get? a with
    | some r => exact hund.apart a r hget ha b hb hb'
    | none =>
      rcases lt_or_gt_of_ne (hout hget b hb hb') with hlt | hgt
      · exact .inl hlt
      · exact .inr (Int.add_one_le_iff.mpr hgt)
  cases hget : spec.sync.get? a with
  | none =>
    simp only [DriverLink.step, hget, Option.some.injEq, sends_nil, List.append_nil,
      Function.update_eq_self] at h
    subst h
    refine ⟨tracks_update hinv.tracks hpoked, hinv.inFlight, ?_⟩
    rw [replicas_of_same hpoked fun y => rfl]
    exact hinv.sound
  | some r =>
    obtain ⟨hd, hsent⟩ := caughtWrite_other ha hget hund hpoked r.size
    have hnone : ∀ t ∈ sends ((s.poke spec x a v).caughtWrite spec a r r.size).1,
        t.valueFor addr = none := by
      intro t ht
      simp [Body.valueFor, (hsent t ht).2, ha]
    have hvalues : valuesFor addr (sends ((s.poke spec x a v).caughtWrite spec a r r.size).1)
        = [] := by
      rw [valuesFor, List.filterMap_eq_nil_iff.mpr hnone, List.map_nil]
    simp only [DriverLink.step, hget, Option.some.injEq] at h
    subst h
    refine ⟨tracks_update hinv.tracks hd, ?_, ?_⟩
    · refine Side.forall_of_other x (by simpa using hinv.inFlight x) ?_
      intro t ht
      simp only [Function.update_self, List.mem_append] at ht
      rcases ht with ht | ht
      · exact hinv.inFlight x.other t ht
      · exact ⟨(hsent t ht).1, fun w hw => by simp [hnone t ht] at hw⟩
    · rw [replicas_of_same hd]
      · exact hinv.sound
      · refine Side.forall_of_other x (by simp) ?_
        simp [valuesFor_append, hvalues]

/-- A delivery takes the higher value. -/
theorem DriverInv.deliver {total : ℕ} (hinv : DriverInv addr record total s)
    (hget : spec.sync.get? addr = some record) (hkind : record.kind = .high)
    (hmask : record.mask = none) (hund : spec.Undisturbed addr record)
    (hrun : (s.driver x).isRunning spec = true)
    (htakes : TakesHigher spec addr record s (.deliver x))
    (h : s.step spec (.deliver x) = some s') :
    DriverInv addr record total s' ∧
      ∀ y, s.value addr record y ≤ s'.value addr record y := by
  cases hinbox : s.inbox x with
  | nil => simp [DriverLink.step, hinbox] at h
  | cons t rest =>
    cases htable : (s.driver x).handleTable spec t with
    | error e => simp [DriverLink.step, hinbox, htable] at h
    | ok res =>
      obtain ⟨out, d⟩ := res
      obtain ⟨hop, hvalues⟩ := hinv.inFlight x t (by simp [hinbox])
      -- whatever the table says, the driver tracks the record afterwards and sends nothing
      have hcases : (∃ v, t.valueFor addr = some v ∧
            Tracks addr record (max (s.value addr record x) v) d ∧ sends out = []) ∨
          (t.valueFor addr = none ∧ Tracks addr record (s.value addr record x) d ∧
            sends out = []) := by
        by_cases haddr : t.addr = some addr
        · cases hval : t.value with
          | none =>
            simp [GameDriver.handleTable, hop, hrun, haddr, hget, GameDriver.applyTable, hval]
              at htable
          | some v =>
            have hvf : t.valueFor addr = some v := by simp [Body.valueFor, haddr, hval]
            obtain ⟨hlow, hmsb⟩ := htakes v (by simp [DriverLink.arriving, hinbox, hvf])
            obtain ⟨hrange, hcond⟩ := hvalues v hvf
            exact .inl ⟨v, hvf, handleTable_self hget hkind hmask hund (hinv.tracks x) hrun hop
              haddr hval hrange hlow hmsb hcond htable⟩
        · exact .inr ⟨by simp [Body.valueFor, haddr],
            handleTable_other hund (hinv.tracks x) hrun hop haddr htable⟩
      have hsent : sends out = [] := by
        rcases hcases with ⟨v, -, -, hsent⟩ | ⟨-, -, hsent⟩ <;> exact hsent
      -- nothing is sent, so the partner's frames stay as they are
      have hstep : s' = ⟨update s.driver x d, update s.inbox x rest⟩ := by
        simp only [DriverLink.step, hinbox, htable, hsent, List.append_nil, Option.some.injEq] at h
        rw [← h]
        congr 1
        funext y
        by_cases hy : y = x.other
        · subst hy; simp
        · simp [hy]
      subst hstep
      have hframes : ∀ y, ∀ t' ∈ update s.inbox x rest y, t'.op = none ∧
          ∀ v, t'.valueFor addr = some v → record.InRange v ∧
            ∀ mem, performTest mem record.cond (some v) record.size = true := by
        refine Side.forall_of_other x ?_ (by simpa using hinv.inFlight x.other)
        intro t' ht'
        exact hinv.inFlight x t' (by simp_all)
      rcases hcases with ⟨v, hvf, hd, -⟩ | ⟨hvf, hd, -⟩
      · refine ⟨⟨tracks_update hinv.tracks hd, hframes, ?_⟩, fun y => ?_⟩
        -- a value for the record: the replica merges it
        · have hhead : (s.replicas addr record total).inbox x
              = v.toNat :: valuesFor addr rest := by
            simp [DriverLink.replicas, valuesFor, hinbox, hvf]
          have hmerge := hinv.sound.merge x v.toNat
            ((s.value addr record x).toNat ⊔ v.toNat) (valuesFor addr rest) hhead le_rfl
          have hmax : (max (s.value addr record x) v).toNat
              = (s.value addr record x).toNat ⊔ v.toNat := by
            omega
          simpa [DriverLink.replicas, value_update, hd.read, Side.map_update, hmax] using hmerge
        · by_cases hy : y = x
          · subst hy
            simp [DriverLink.value, hd.read]
          · simp [DriverLink.value, hy]
      · refine ⟨⟨tracks_update hinv.tracks hd, hframes, ?_⟩, fun y => ?_⟩
        -- a table without one: the replicas stay the same
        · rw [replicas_of_same hd]
          · exact hinv.sound
          · refine Side.forall_of_other x ?_ (by simp)
            simp [valuesFor, hinbox, hvf]
        · by_cases hy : y = x
          · subst hy
            simpa [DriverLink.value] using hd.read.ge
          · simp [DriverLink.value, hy]

/-- Every guarded step keeps the invariant. -/
theorem DriverInv.step {total : ℕ} (hinv : DriverInv addr record total s)
    (hget : spec.sync.get? addr = some record) (hkind : record.kind = .high)
    (hmask : record.mask = none) (hund : spec.Undisturbed addr record) {e : DriverEvent}
    (hrun : s.Running spec e) (hraise : s.RaisesOnly addr record e)
    (htakes : TakesHigher spec addr record s e) (h : s.step spec e = some s') :
    DriverInv addr record (raiseBy addr total e) s' := by
  cases e with
  | write x a v =>
    obtain ⟨hself, hout⟩ := htakes
    by_cases ha : a = addr
    · subst ha
      obtain ⟨hmsb, hcond⟩ := hself rfl
      simpa [raiseBy] using hinv.write_self hget hkind hmask hund hrun (hraise rfl) hmsb hcond h
    · simpa [raiseBy, ha] using hinv.write_other hund ha hout h
  | deliver x => exact (hinv.deliver hget hkind hmask hund hrun htakes h).1

/-- **`high` records between two drivers**, when no lower value brings a new bit: no delivery lowers
a value, and whenever nothing is in flight both values are the highest one ever written. -/
theorem driver_high_converges (hget : spec.sync.get? addr = some record)
    (hkind : record.kind = .high) (hmask : record.mask = none)
    (hund : spec.Undisturbed addr record) (mem : Mem)
    (h : Run (DriverLink.step spec)
      (fun s e => s.Running spec e ∧ s.RaisesOnly addr record e ∧ TakesHigher spec addr record s e)
      (DriverLink.start spec mem) es s) :
    (∀ x s', s.Running spec (.deliver x) → TakesHigher spec addr record s (.deliver x) →
      s.step spec (.deliver x) = some s' →
      ∀ y, s.value addr record y ≤ s'.value addr record y) ∧
    ((∀ x, s.inbox x = []) →
      ∀ x, s.value addr record x = highestWritten addr record mem es) := by
  have hinv : DriverInv addr record (highestWritten addr record mem es) s := by
    induction h with
    | start => exact DriverInv.start hget mem
    | next _ hok hstep ih =>
      obtain ⟨hrun, hraise, htakes⟩ := hok
      rw [highestWritten, List.foldl_append]
      exact ih.step hget hkind hmask hund hrun hraise htakes hstep
  refine ⟨fun x s' hrun htakes hstep =>
    (hinv.deliver hget hkind hmask hund hrun htakes hstep).2, fun hempty x => ?_⟩
  have hconv : (s.value addr record x).toNat = highestWritten addr record mem es :=
    hinv.sound.converged (fun y => by simp [DriverLink.replicas, valuesFor, hempty y])
      (fun y => rfl) x
  have hnonneg : 0 ≤ s.value addr record x := readBytes_nonneg _ _ _
  rw [← hconv]
  exact (Int.toNat_of_nonneg hnonneg).symm

end Runs

/-! ## Examples -/

/-- A mode that syncs a single `high` byte. -/
def byteSpec (addr : Addr) : Spec where
  guid := "solo"
  sync := ⟨[(addr, { kind := .high })], by simp⟩

theorem byteSpec_get {addr a : Addr} {r : LuaRecord} (h : (byteSpec addr).sync.get? a = some r) :
    a = addr ∧ r = { kind := .high } := by
  by_cases ha : a = addr
  · subst ha
    simp only [byteSpec, Dict.get?, List.find?_cons_of_pos, Option.map_some, decide_true] at h
    exact ⟨rfl, (Option.some.inj h).symm⟩
  · simp [byteSpec, Dict.get?, Ne.symm ha] at h

theorem byteSpec_undisturbed (addr : Addr) :
    (byteSpec addr).Undisturbed addr { kind := .high } := by
  refine ⟨fun a r h hne => absurd (byteSpec_get h).1 hne, ?_, ?_⟩
  · intro a r f h hf
    rw [(byteSpec_get h).2] at hf
    simp at hf
  · intro a r f h hf
    rw [(byteSpec_get h).2] at hf
    simp at hf

/-- The byte at address 0. -/
def soloSpec : Spec := byteSpec 0

/-- Two raises cross, from 1 to 3 and from 1 to 7; both sides end at 7. -/
theorem driver_high_converges_crossing :
    ∃ s, Run (DriverLink.step soloSpec)
        (fun s e => s.Running soloSpec e ∧ s.RaisesOnly 0 { kind := .high } e ∧
          TakesHigher soloSpec 0 { kind := .high } s e)
        (DriverLink.start soloSpec fun _ => 1)
        [.write .a 0 3, .write .b 0 7, .deliver .b, .deliver .a] s ∧
      (∀ x, s.inbox x = []) ∧ ∀ x, s.value 0 { kind := .high } x = 7 := by
  have hrun : ∃ s, Run (DriverLink.step soloSpec)
      (fun s e => s.Running soloSpec e ∧ s.RaisesOnly 0 { kind := .high } e ∧
        TakesHigher soloSpec 0 { kind := .high } s e)
      (DriverLink.start soloSpec fun _ => 1)
      [.write .a 0 3, .write .b 0 7, .deliver .b, .deliver .a] s ∧ ∀ x, s.inbox x = [] := by
    refine ⟨_, .of_admissible
      ⟨⟨rfl, fun _ => ⟨⟨by decide, by decide⟩, by decide⟩,
          fun _ => ⟨by decide, fun _ => rfl⟩, by simp [soloSpec, byteSpec, Dict.get?]⟩, _, rfl,
        ⟨rfl, fun _ => ⟨⟨by decide, by decide⟩, by decide⟩,
          fun _ => ⟨by decide, fun _ => rfl⟩, by simp [soloSpec, byteSpec, Dict.get?]⟩, _, rfl,
        ⟨rfl, trivial, ?_⟩, _, rfl, ⟨rfl, trivial, ?_⟩, _, rfl, rfl⟩, ?_⟩
    -- 7 is taken over 3, and 3 is not taken over 7.
    · rintro v ⟨⟩
      exact ⟨fun _ => by decide, fun h => absurd h (by decide)⟩
    · rintro v ⟨⟩
      exact ⟨fun h => absurd h (by decide), fun _ => by decide⟩
    · intro x
      cases x <;> rfl
  obtain ⟨s, hrun, hempty⟩ := hrun
  exact ⟨s, hrun, hempty,
    (driver_high_converges rfl rfl rfl (byteSpec_undisturbed 0) _ hrun).2 hempty⟩

/-- **The defect**: a 4 and a 3 cross.  3 has bits 4 lacks, so it replaces the 4 when it arrives. -/
theorem driver_high_lowers :
    ∃ s s', Run (DriverLink.step soloSpec)
        (fun s e => s.Running soloSpec e ∧ s.RaisesOnly 0 { kind := .high } e)
        (DriverLink.start soloSpec fun _ => 0) [.write .a 0 4, .write .b 0 3] s ∧
      s.step soloSpec (.deliver .a) = some s' ∧
      s.value 0 { kind := .high } .a = 4 ∧ s'.value 0 { kind := .high } .a = 3 := by
  refine ⟨_, _, .of_admissible
    ⟨⟨rfl, fun _ => ⟨⟨by decide, by decide⟩, by decide⟩⟩, _, rfl,
      ⟨rfl, fun _ => ⟨⟨by decide, by decide⟩, by decide⟩⟩, _, rfl, rfl⟩, rfl, rfl, rfl⟩

end EmuCoop.Fceux
