import EmuCoop.Lib.Run
import EmuCoop.Lib.Side
import EmuCoop.Bridge.EngineSpec

/-!
# Two engines on a link

Two `SyncEngine`s of one mode, each with its own console memory, connected by two first-in
first-out channels.  Games write bytes, engines poll and send what `diff` returns, and frames are
delivered one by one through `handle_table`; these events interleave in any order.

The endpoints never fail, there is no map gate, and connections do not drop.

## One address at a time

`Link.cell` keeps of a link what concerns one address: the byte and the cached byte of each side
and the values in flight for it.  `cell_game`, `cell_poll` and `cell_deliver` say that every event
of the link is an event of the cell, or leaves it alone; the results about `bitOr`, `delta` and
`high` records are proved about cells.
-/

namespace EmuCoop.Bridge

open EmuCoop.Lib
open Function (update)

/-! ## The system -/

/-- One side of a link. -/
structure Party where
  engine : SyncEngine
  ram : Ram

/-- Two parties and the frames in flight. -/
structure Link where
  party : Side → Party
  /-- The frames in flight *to* a side, oldest first. -/
  inbox : Side → List Body
  /-- Whether a side has polled since its memory last changed. -/
  polled : Side → Bool

inductive LinkEvent where
  /-- The game of a side writes a byte. -/
  | game (x : Side) (addr : Addr) (b : BitVec 8)
  /-- A side polls its memory and sends the changes. -/
  | poll (x : Side)
  /-- A side handles the oldest frame in flight to it. -/
  | deliver (x : Side)

namespace Link

/-- A poll: `diff` on a fresh snapshot, and the frames it gives are sent. -/
def poll (mode : Mode) (x : Side) (s : Link) : Link :=
  let p := s.party x
  let (out, engine) := diff mode (p.ram.snapshot mode.readRanges) p.engine
  { party := update s.party x { p with engine := engine }
    inbox := update s.inbox x.other
      (s.inbox x.other ++ out.map fun c => Body.update c.1 c.2.1)
    polled := update s.polled x true }

/-- A delivery: `handle_table` on the frame.  The clock only matters to a map gate. -/
def deliver (mode : Mode) (x : Side) (t : Body) (rest : List Body) (s : Link) : Link :=
  let p := s.party x
  let (engine, ram) := (handleTableResult mode dictEndpoint t true false 0 p.engine p.ram).2
  let same := match t.addr with
    | some addr => ram addr = p.ram addr
    | none => true
  { party := update s.party x { engine := engine, ram := ram }
    inbox := update s.inbox x rest
    polled := update s.polled x (s.polled x && same) }

def step (mode : Mode) (s : Link) : LinkEvent → Option Link
  | .game x addr b =>
    let p := s.party x
    some { s with
      party := update s.party x { p with ram := update p.ram addr b }
      polled := update s.polled x (s.polled x && (p.ram addr = b)) }
  | .poll x => some (s.poll mode x)
  | .deliver x =>
    match s.inbox x with
    | [] => none
    | t :: rest => some (s.deliver mode x t rest)

/-- A link at the start: equal memories, caches equal to the memory, nothing in flight. -/
def start (mode : Mode) (ram : Ram) : Link where
  party _ :=
    { engine :=
        { cache := fun addr => (mode.sync.get? addr).map fun _ => byteVal (ram addr)
          didCache := true }
      ram := ram }
  inbox _ := []
  polled _ := true

/-- The setting of the results below: snapshots are plausible when polled, and the game is running
when a frame is delivered. -/
def Setting (mode : Mode) (s : Link) : LinkEvent → Prop
  | .game _ _ _ => True
  | .poll x => implausibleSnapshotReason mode ((s.party x).ram.snapshot mode.readRanges) = none
  | .deliver x => mode.running (s.party x).ram = true

/-- Nothing is in flight and both sides have polled since their memory last changed. -/
def Quiescent (s : Link) : Prop := ∀ x, s.inbox x = [] ∧ s.polled x = true

end Link

/-- A mode that syncs a single record, at address 0. -/
def soloMode (record : Record) : Mode where
  guid := "solo"
  sync := ⟨[(0, record)], by simp⟩
  runningAddr := none
  readRanges := [(0, 1)]
  isRunning _ := true
  covers addr h := by
    obtain rfl : addr = 0 := by simpa [Dict.keys] using h
    rfl

/-- Both games write, both sides poll, and the updates cross. -/
def crossing (b c : BitVec 8) : List LinkEvent :=
  [.game .a 0 b, .poll .a, .game .b 0 c, .poll .b, .deliver .b, .deliver .a, .poll .a, .poll .b]

/-! ## Cells -/

/-- What a link holds about one address. -/
@[ext]
structure Cell where
  ram : Side → BitVec 8
  cache : Side → BitVec 8
  inbox : Side → List ℤ

/-- `diff`, restricted to one record: the byte that is cached next and the values sent. -/
def pollByte (record : Record) (ram cache : BitVec 8) : BitVec 8 × List ℤ :=
  if ram = cache then
    (cache, [])
  else
    let (allow, value) := recordChanged record (byteVal ram) (byteVal cache) false
    if allow then
      (ram, [value])
    else if shouldCacheSuppressedDelta record (byteVal ram) (byteVal cache) then
      (ram, [])
    else
      (cache, [])

namespace Cell

/-- A poll of the byte. -/
def poll (record : Record) (x : Side) (c : Cell) : Cell :=
  let (cached, out) := pollByte record (c.ram x) (c.cache x)
  { c with
    cache := update c.cache x cached
    inbox := update c.inbox x.other (c.inbox x.other ++ out) }

/-- The delivery of a value: what is written is written to memory and cache. -/
def deliver (new : Option (BitVec 8)) (x : Side) (rest : List ℤ) (c : Cell) : Cell :=
  { ram := update c.ram x (new.getD (c.ram x))
    cache := update c.cache x (new.getD (c.cache x))
    inbox := update c.inbox x rest }

/-- A delivery keeps the part of the cache equal to the byte that was equal before: what is
written is written to both. -/
theorem deliver_settled {β : Type} (f : BitVec 8 → β) (new : Option (BitVec 8)) (x : Side)
    (rest : List ℤ) {c : Cell} {y : Side} (h : f (c.cache y) = f (c.ram y)) :
    f ((c.deliver new x rest).cache y) = f ((c.deliver new x rest).ram y) := by
  by_cases hy : y = x
  · subst hy
    cases new with
    | none => simpa [deliver] using h
    | some b => simp [deliver]
  · simpa [deliver, hy] using h

end Cell

namespace Link

variable {mode : Mode} {addr : Addr} {record : Record} {s s' : Link} {x : Side}

/-- What a link holds about one address. -/
def cell (addr : Addr) (s : Link) : Cell where
  ram y := (s.party y).ram addr
  cache y := BitVec.ofInt 8 (((s.party y).engine.cache addr).getD 0)
  inbox y := (s.inbox y).filterMap (Body.valueFor addr)

/-- The part of the link's state the cell relies on: the address is cached as a byte, and there is
no map gate. -/
structure Tracked (addr : Addr) (s : Link) : Prop where
  cached : ∀ y, (s.party y).engine.cache addr = some (byteVal ((s.cell addr).cache y))
  ungated : ∀ y, (s.party y).engine.mapWriteGate = none

/-- At the start the cell's cache is its byte. -/
theorem cell_start (hget : mode.sync.get? addr = some record) (ram : Ram) :
    (start mode ram).cell addr = ⟨fun _ => ram addr, fun _ => ram addr, fun _ => []⟩ := by
  simp [cell, start, hget]

theorem tracked_start (hget : mode.sync.get? addr = some record) (ram : Ram) :
    Tracked addr (start mode ram) := by
  refine ⟨fun y => ?_, fun y => rfl⟩
  rw [cell_start hget]
  simp [start, hget]

/-! ### Game writes -/

/-- A write of the game at the address. -/
theorem cell_game (b : BitVec 8) (h : step mode s (.game x addr b) = some s') :
    s'.cell addr = { s.cell addr with ram := update (s.cell addr).ram x b } := by
  obtain rfl := Option.some.inj h
  refine Cell.ext ?_ ?_ rfl
  · funext y
    by_cases hy : y = x
    · subst hy; simp [cell]
    · simp [cell, hy]
  · funext y
    by_cases hy : y = x
    · subst hy; simp [cell]
    · simp [cell, hy]

/-- A write of the game somewhere else. -/
theorem cell_game_of_ne {a : Addr} (ha : a ≠ addr) (b : BitVec 8)
    (h : step mode s (.game x a b) = some s') : s'.cell addr = s.cell addr := by
  obtain rfl := Option.some.inj h
  refine Cell.ext ?_ ?_ rfl
  · funext y
    by_cases hy : y = x
    · subst hy; simp [cell, ha.symm]
    · simp [cell, hy]
  · funext y
    by_cases hy : y = x
    · subst hy; simp [cell]
    · simp [cell, hy]

theorem Tracked.game (ht : Tracked addr s) {a : Addr} {b : BitVec 8}
    (h : step mode s (.game x a b) = some s') : Tracked addr s' := by
  have hengine : ∀ y, (s'.party y).engine = (s.party y).engine := by
    obtain rfl := Option.some.inj h
    intro y
    by_cases hy : y = x
    · subst hy; simp
    · simp [hy]
  refine ⟨fun y => ?_, fun y => by rw [hengine]; exact ht.ungated y⟩
  have := ht.cached y
  simp only [cell, hengine] at this ⊢
  exact this

/-! ### Polls -/

/-- The frames of a poll, as values for the address. -/
private theorem filterMap_valueFor (out : List (Addr × ℤ × Option String)) :
    (out.map fun c => Body.update c.1 c.2.1).filterMap (Body.valueFor addr)
      = (out.filter fun c => c.1 = addr).map fun c => c.2.1 := by
  induction out with
  | nil => rfl
  | cons c out ih =>
    rw [List.map_cons, List.filterMap_cons, ih]
    by_cases hc : c.1 = addr
    · simp [Body.valueFor, Body.update, hc]
    · simp [Body.valueFor, Body.update, hc]

/-- One round of `diff` on a cached byte. -/
theorem diffAddr_byte (record : Record) {snapshot : Snapshot} {r : BitVec 8}
    (k : BitVec 8) (hsnap : snapshot addr = some (byteVal r)) :
    (diffAddr snapshot addr record (some (byteVal k))).1
      = some (byteVal (pollByte record r k).1) ∧
    (diffAddr snapshot addr record (some (byteVal k))).2.map (fun c => c.2.1)
      = (pollByte record r k).2 := by
  unfold diffAddr pollByte
  simp only [hsnap, Option.getD_some, byteVal_inj]
  split_ifs <;> simp

/-- A poll of the link is a poll of the cell. -/
theorem cell_poll (ht : Tracked addr s) (hget : mode.sync.get? addr = some record)
    (hplaus : Setting mode s (.poll x)) (h : step mode s (.poll x) = some s') :
    s'.cell addr = (s.cell addr).poll record x := by
  obtain rfl := Option.some.inj h
  -- `diff` on a snapshot of the memory is a poll of each byte
  obtain ⟨hbyte, hout⟩ := diffAddr_byte record ((s.cell addr).cache x)
    (snapshot_readRanges mode (s.party x).ram hget)
  have hcache := diff_cache hplaus hget (s.party x).engine
  have hsends := diff_sends hplaus hget (s.party x).engine
  rw [ht.cached x] at hcache hsends
  refine Cell.ext ?_ ?_ ?_
  · funext y
    by_cases hy : y = x
    · subst hy; simp [cell, poll, Cell.poll]
    · simp [cell, poll, Cell.poll, hy]
  · funext y
    by_cases hy : y = x
    · subst hy
      simp only [cell, poll, Cell.poll, Function.update_self]
      rw [hcache, hbyte, Option.getD_some, ofInt_byteVal]
      rfl
    · simp [cell, poll, Cell.poll, hy]
  · refine funext (Side.forall_of_other x ?_ ?_)
    · simp [cell, poll, Cell.poll]
    · simp only [cell, poll, Cell.poll, Function.update_self, List.filterMap_append,
        filterMap_valueFor]
      rw [hsends, hout]
      rfl

theorem Tracked.poll (ht : Tracked addr s) (hget : mode.sync.get? addr = some record)
    (hplaus : Setting mode s (.poll x)) (h : step mode s (.poll x) = some s') :
    Tracked addr s' := by
  have hcell := cell_poll ht hget hplaus h
  obtain rfl := Option.some.inj h
  obtain ⟨hbyte, -⟩ := diffAddr_byte record ((s.cell addr).cache x)
    (snapshot_readRanges mode (s.party x).ram hget)
  have hcache := diff_cache hplaus hget (s.party x).engine
  rw [ht.cached x] at hcache
  refine ⟨fun y => ?_, fun y => ?_⟩
  · rw [hcell]
    by_cases hy : y = x
    · subst hy
      simp only [Link.poll, Cell.poll, Function.update_self]
      rw [hcache, hbyte]
      rfl
    · simpa [Link.poll, Cell.poll, hy] using ht.cached y
  · by_cases hy : y = x
    · subst hy
      simp only [Link.poll, Function.update_self]
      rw [diff_snd]
      exact ht.ungated y
    · simpa [Link.poll, hy] using ht.ungated y

/-! ### Deliveries -/

/-- A delivery takes the oldest frame in flight. -/
theorem step_deliver (h : step mode s (.deliver x) = some s') :
    ∃ t rest, s.inbox x = t :: rest ∧ s' = s.deliver mode x t rest := by
  simp only [step] at h
  cases hinbox : s.inbox x with
  | nil => simp [hinbox] at h
  | cons t rest =>
    simp only [hinbox, Option.some.injEq] at h
    exact ⟨t, rest, rfl, h.symm⟩

/-- A delivery is `writeBack` at the address its frame names, or does nothing. -/
private theorem handleTable_writeBack (hgate : (s.party x).engine.mapWriteGate = none)
    (hrun : mode.running (s.party x).ram = true) (t : Body) :
    (∃ a value rec, t.addr = some a ∧ t.value = some value ∧ mode.sync.get? a = some rec ∧
      (handleTableResult mode dictEndpoint t true false 0 (s.party x).engine (s.party x).ram).2
        = writeBack a (received mode a rec value ((s.party x).ram a))
            (s.party x).engine (s.party x).ram) ∨
    ((∀ a value, t.addr = some a → t.value = some value → mode.sync.get? a = none) ∧
      (handleTableResult mode dictEndpoint t true false 0 (s.party x).engine (s.party x).ram).2
        = ((s.party x).engine, (s.party x).ram)) := by
  rcases names_or_ignored mode t with ⟨a, value, rec, haddr, hvalue, hrec⟩ | hnone
  · refine .inl ⟨a, value, rec, haddr, hvalue, hrec, ?_⟩
    exact handleTableResult_dict haddr hvalue hrec (by simp [gateFor, hgate]) fun _ => hrun
  · exact .inr ⟨hnone, handleTableResult_ignored hnone⟩

/-- The cell after a delivery that is `writeBack` at the address `a`. -/
private theorem cell_writeBack {a : Addr} {new : Option (BitVec 8)} {t : Body} {rest : List Body}
    (ht : Tracked addr s) (hinbox : s.inbox x = t :: rest)
    (hwb : (handleTableResult mode dictEndpoint t true false 0 (s.party x).engine
      (s.party x).ram).2 = writeBack a new (s.party x).engine (s.party x).ram) :
    (a = addr → (s.deliver mode x t rest).cell addr
        = (s.cell addr).deliver new x (rest.filterMap (Body.valueFor addr))) ∧
    (a ≠ addr → Body.valueFor addr t = none →
      (s.deliver mode x t rest).cell addr = s.cell addr) := by
  -- the write is at the cell's address, or the frame is none of its business
  refine ⟨fun ha => ?_, fun ha hnone => ?_⟩
  · subst ha
    refine Cell.ext ?_ ?_ ?_ <;> funext y <;> by_cases hy : y = x
    · subst hy
      simp [cell, deliver, Cell.deliver, hwb, writeBack_ram_self]
    · simp [cell, deliver, Cell.deliver, hy]
    · subst hy
      have hc := ht.cached y
      simp only [cell, deliver, Cell.deliver, hwb, Function.update_self, writeBack_cache_self]
      cases new with
      | none => rfl
      | some b => simp
    · simp [cell, deliver, Cell.deliver, hy]
    · subst hy
      simp [cell, deliver, Cell.deliver]
    · simp [cell, deliver, Cell.deliver, hy]
  · refine Cell.ext ?_ ?_ ?_ <;> funext y <;> by_cases hy : y = x
    · subst hy
      simp [cell, deliver, hwb, writeBack_ram_of_ne _ _ _ (Ne.symm ha)]
    · simp [cell, deliver, hy]
    · subst hy
      simp [cell, deliver, hwb, writeBack_cache_of_ne _ _ _ (Ne.symm ha)]
    · simp [cell, deliver, hy]
    · subst hy
      simp [cell, deliver, hinbox, hnone]
    · simp [cell, deliver, hy]

/-- **A delivery of the link**, seen at one address: the value its frame carries for the address is
received, and a frame for another address leaves the cell alone. -/
theorem cell_deliver (ht : Tracked addr s) (hget : mode.sync.get? addr = some record)
    (hrun : Setting mode s (.deliver x)) (h : step mode s (.deliver x) = some s') :
    ∃ t rest, s.inbox x = t :: rest ∧
      match Body.valueFor addr t with
      | some value => s'.cell addr = (s.cell addr).deliver
          (received mode addr record value ((s.cell addr).ram x)) x
          (rest.filterMap (Body.valueFor addr))
      | none => s'.cell addr = s.cell addr := by
  obtain ⟨t, rest, hinbox, rfl⟩ := step_deliver h
  refine ⟨t, rest, hinbox, ?_⟩
  rcases handleTable_writeBack (ht.ungated x) hrun t with
    ⟨a, value, rec, haddr, hvalue, hrec, hwb⟩ | ⟨hnone, hwb⟩
  · obtain ⟨hself, hother⟩ := cell_writeBack ht hinbox hwb
    by_cases ha : a = addr
    · subst ha
      obtain rfl : rec = record := Option.some.inj (hrec.symm.trans hget)
      simp only [Body.valueFor, haddr, if_true, hvalue]
      exact hself rfl
    · have hval : Body.valueFor addr t = none := by simp [Body.valueFor, haddr, ha]
      simp only [hval]
      exact hother ha hval
  · have hval : Body.valueFor addr t = none := by
      unfold Body.valueFor
      split_ifs with haddr
      · refine Option.eq_none_iff_forall_ne_some.mpr fun value hvalue => ?_
        simp [hnone addr value haddr hvalue] at hget
      · rfl
    simp only [hval]
    -- nothing is written: `writeBack` of no byte at some other address
    have hwb' : _ = writeBack (addr + 1) none (s.party x).engine (s.party x).ram := hwb
    exact (cell_writeBack ht hinbox hwb').2 (by simp) hval

theorem Tracked.deliver (ht : Tracked addr s)
    (hrun : Setting mode s (.deliver x)) (h : step mode s (.deliver x) = some s') :
    Tracked addr s' := by
  obtain ⟨t, rest, hinbox, rfl⟩ := step_deliver h
  -- Whatever becomes of the frame, it is a write to one address or none.
  have hwb : ∃ a new, (handleTableResult mode dictEndpoint t true false 0 (s.party x).engine
      (s.party x).ram).2 = writeBack a new (s.party x).engine (s.party x).ram := by
    rcases handleTable_writeBack (ht.ungated x) hrun t with
      ⟨a, value, rec, -, -, -, hwb⟩ | ⟨-, hwb⟩
    · exact ⟨a, _, hwb⟩
    · exact ⟨addr, none, hwb⟩
  obtain ⟨a, new, hwb⟩ := hwb
  refine ⟨fun y => ?_, fun y => ?_⟩ <;> by_cases hy : y = x
  -- The receiver's cell: written here, or not.
  · subst hy
    simp only [cell, Link.deliver, hwb, Function.update_self]
    by_cases ha : addr = a
    · subst ha
      have hc := ht.cached y
      rw [writeBack_cache_self]
      cases new with
      | none => simpa [cell] using hc
      | some b => simp
    · rw [writeBack_cache_of_ne _ _ _ ha]
      simpa [cell] using ht.cached y
  · simpa [cell, Link.deliver, hy] using ht.cached y
  · subst hy
    simp only [Link.deliver, hwb, Function.update_self]
    rw [writeBack_engine]
    exact ht.ungated y
  · simpa [Link.deliver, hy] using ht.ungated y

/-- Every step of the setting keeps the address tracked. -/
theorem Tracked.step (ht : Tracked addr s) (hget : mode.sync.get? addr = some record)
    {e : LinkEvent} (hset : Setting mode s e) (h : Link.step mode s e = some s') :
    Tracked addr s' := by
  cases e with
  | game x a b => exact ht.game h
  | poll x => exact ht.poll hget hset h
  | deliver x => exact ht.deliver hset h

/-! ### Steps, seen at one address -/

/-- The value for the address that the next delivery to a side brings, if it brings one. -/
def arriving (addr : Addr) (s : Link) (x : Side) : Option ℤ :=
  (s.inbox x).head?.bind (Body.valueFor addr)

/-- The record's `cond`, if there is one, accepts the changes it is asked about. -/
def CondAccepts (addr : Addr) (record : Record) (s : Link) : LinkEvent → Prop
  | .game _ _ _ => True
  | .poll x =>
    record.condAllows
      (record.maskedValue (byteVal ((s.cell addr).ram x)) (byteVal ((s.cell addr).cache x))) = true
  | .deliver x => ∀ value, s.arriving addr x = some value →
    record.condAllows (record.maskedValue value (byteVal ((s.cell addr).ram x))) = true

/-- **Everything a step can do to a cell**: a game write, a poll, the delivery of a value, or
nothing at all. -/
theorem cell_step (ht : Tracked addr s) (hget : mode.sync.get? addr = some record)
    {e : LinkEvent} (hset : Setting mode s e) (h : Link.step mode s e = some s') :
    (∃ x b, e = .game x addr b ∧
      s'.cell addr = { s.cell addr with ram := update (s.cell addr).ram x b }) ∨
    (∃ x, e = .poll x ∧ s'.cell addr = (s.cell addr).poll record x) ∨
    (∃ x value rest, e = .deliver x ∧ s.arriving addr x = some value ∧
      (s.cell addr).inbox x = value :: rest ∧ s'.cell addr = (s.cell addr).deliver
        (received mode addr record value ((s.cell addr).ram x)) x rest) ∨
    ((∀ x b, e ≠ .game x addr b) ∧ (∀ x, e ≠ .poll x) ∧ s'.cell addr = s.cell addr) := by
  cases e with
  -- a write elsewhere is no step of the cell
  | game x a b =>
    by_cases ha : a = addr
    · subst ha
      exact .inl ⟨x, b, rfl, cell_game b h⟩
    · refine .inr (.inr (.inr ⟨?_, by simp, cell_game_of_ne ha b h⟩))
      intro y c hc
      injection hc with _ hac _
      exact ha hac
  | poll x => exact .inr (.inl ⟨x, rfl, cell_poll ht hget hset h⟩)
  | deliver x =>
    obtain ⟨t, rest, hinbox, hcell⟩ := cell_deliver ht hget hset h
    -- nor is a frame for another address
    cases hval : Body.valueFor addr t with
    | none =>
      rw [hval] at hcell
      exact .inr (.inr (.inr ⟨by simp, by simp, hcell⟩))
    | some value =>
      rw [hval] at hcell
      refine .inr (.inr (.inl ⟨x, value, _, rfl, ?_, ?_, hcell⟩))
      · simp [arriving, hinbox, hval]
      · simp [cell, hinbox, hval]

/-- A side counts as polled after a step only if the step is its poll, or if it was polled before
and its byte stays. -/
theorem polled_step (ht : Tracked addr s) (hget : mode.sync.get? addr = some record)
    {e : LinkEvent} (hset : Setting mode s e) (h : Link.step mode s e = some s') {y : Side}
    (hp : s'.polled y = true) :
    e = .poll y ∨ (s.polled y = true ∧ (s'.cell addr).ram y = (s.cell addr).ram y) := by
  cases e with
  | game x a b =>
    right
    obtain rfl := Option.some.inj h
    by_cases hy : y = x
    · subst hy
      obtain ⟨hold, hsame⟩ : s.polled y = true ∧ (s.party y).ram a = b := by simpa using hp
      refine ⟨hold, ?_⟩
      by_cases ha : addr = a
      · subst ha; simp [cell, hsame]
      · simp [cell, ha]
    · exact ⟨by simpa [hy] using hp, by simp [cell, hy]⟩
  | poll x =>
    by_cases hy : y = x
    · exact .inl (by rw [hy])
    · obtain rfl := Option.some.inj h
      exact .inr ⟨by simpa [Link.poll, hy] using hp, by simp [cell, Link.poll, hy]⟩
  | deliver x =>
    right
    obtain ⟨t, rest, hinbox, hcell⟩ := cell_deliver ht hget hset h
    obtain ⟨t', rest', hinbox', rfl⟩ := step_deliver h
    obtain ⟨rfl, rfl⟩ : t = t' ∧ rest = rest' := by simpa [hinbox] using hinbox'
    by_cases hy : y = x
    · subst hy
      simp only [Link.deliver, Function.update_self, Bool.and_eq_true] at hp
      refine ⟨hp.1, ?_⟩
      cases hval : Body.valueFor addr t with
      | none =>
        rw [hval] at hcell
        rw [hcell]
      | some value =>
        -- the frame names the address, so the flag compares this very byte
        have haddr : t.addr = some addr := by
          by_contra hne
          simp [Body.valueFor, hne] at hval
        have hsame := hp.2
        simp only [haddr, decide_eq_true_eq] at hsame
        simpa [cell, Link.deliver] using hsame
    · exact ⟨by simpa [Link.deliver, hy] using hp, by simp [cell, Link.deliver, hy]⟩

/-- In a quiescent link nothing is in flight for the address either. -/
theorem Quiescent.cell_inbox (hq : s.Quiescent) (y : Side) : (s.cell addr).inbox y = [] := by
  simp [cell, (hq y).1]

/-! ### Game writes of a run -/

/-- The bytes the games have written to the address, oldest first. -/
def written (addr : Addr) (es : List LinkEvent) : List (Side × BitVec 8) :=
  es.filterMap fun e => match e with
    | .game x a b => if a = addr then some (x, b) else none
    | .poll _ | .deliver _ => none

theorem written_game (es : List LinkEvent) (x : Side) (b : BitVec 8) :
    written addr (es ++ [.game x addr b]) = written addr es ++ [(x, b)] := by
  simp [written]

/-- Other events write nothing to the address. -/
theorem written_of_not_game {es : List LinkEvent} {e : LinkEvent}
    (h : ∀ x b, e ≠ .game x addr b) : written addr (es ++ [e]) = written addr es := by
  rw [written, List.filterMap_append, ← written, List.append_right_eq_self]
  cases e with
  | game x a b =>
    by_cases ha : a = addr
    · subst ha; exact absurd rfl (h x b)
    · simp [ha]
  | poll x => rfl
  | deliver x => rfl

end Link

end EmuCoop.Bridge
