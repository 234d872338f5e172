import EmuCoop.Bridge.PipeTick
import EmuCoop.Bridge.Session
import EmuCoop.Lib.JsonBytes

/-!
# What a partner can do to a tick

The relay passes on whatever a partner sends.  A tick of the bridge's pipe survives malformed JSON
and frames that are too large: it fails the pipe.  It does not survive everything.  Bytes that are
not text, a frame that is no object, a body that is no object, an address or a value that is no
number, a guid, version or reason that cannot be shown each let an exception out of `tick`, and a
frame that is `null` stays at the front of the buffer for good.

## Main results

- `BytePipe.tick_survives_iff` : exactly when a tick ends as it should, for any owner of the pipe.
- `session_survives_iff` : the same with `SyncSession.on_data`, where the owner's part is a test of
  the body and of what the status sink can show.
- `tick_raises` : three frames that a tick does not survive.
-/

namespace EmuCoop.Bridge

open EmuCoop.Lib

/-! ## Ends of a tick -/

namespace BytePipe

variable {α : Type} {cfg : Setup α} {p : BytePipe α}

/-- The pipe has failed, or was closed. -/
def Down (client : PipeClient) : Prop :=
  client.state = .failed ∨ client.state = .reconnecting ∨ client.state = .closed

/-- A tick has ended as it should: without an exception, and either no complete frame is left in
the buffer or the pipe is down. -/
structure Survived (cfg : Setup α) (p : BytePipe α) : Prop where
  quiet : p.raised = false
  settled : tryDecodeFrame cfg.loads p.rxBuf = .incomplete ∨ Down p.client

/-- The frame-level pipe behind an object. -/
def after (cfg : Setup α) (now : ℚ) (sends : Bool) (fields : List (PyText × PyJson))
    (client : PipeClient) : PipeClient :=
  if isData fields then { client with lastRx := now }
  else client.handleFrame now (toFrame cfg.display fields) (if sends then .sent else .failed)

/-- What the owner of a pipe does not raise for: data for a pipe that is `ESTABLISHED` has a body
that it accepts, and the reason of an abort can be shown. -/
structure Accepted (cfg : Setup α) (accepts : PyJson → Prop) (client : PipeClient)
    (fields : List (PyText × PyJson)) : Prop where
  data : isData fields = true → client.state = .established → client.onData = true →
    accepts (body fields)
  abort : isAbort fields = true → client.onAbort = true → cfg.onAbort (reason fields) = true

/-- What a tick can handle, from the front of the buffer: every payload is text and every frame an
object that the owner does not raise for.  It does not matter what is behind a frame that fails the
pipe for good, or behind a wire error. -/
def Digestible (cfg : Setup α) (accepts : PyJson → Prop) :
    ℕ → (ℕ → ℚ × Bool) → PipeClient → List UInt8 → Prop
  | 0, _, _, _ => True
  | fuel + 1, env, client, buf =>
    match tryDecodeFrame cfg.loads buf with
    | .incomplete | .wireError => True
    | .raises => False
    | .frame .null _ => Down client
    | .frame (.obj fields) consumed =>
      let client' := after cfg (env 0).1 (env 0).2 fields client
      Accepted cfg accepts client fields ∧
      (client'.state = .failed ∨ client'.state = .closed ∨
        Digestible cfg accepts fuel (fun k => env (k + 1)) client' (buf.drop consumed))
    | .frame _ _ => False

instance (client : PipeClient) : Decidable (Down client) := inferInstanceAs (Decidable (_ ∨ _ ∨ _))

instance (cfg : Setup α) (accepts : PyJson → Prop) [DecidablePred accepts] (client : PipeClient)
    (fields : List (PyText × PyJson)) : Decidable (Accepted cfg accepts client fields) :=
  decidable_of_iff
    ((isData fields = true → client.state = .established → client.onData = true →
        accepts (body fields)) ∧
      (isAbort fields = true → client.onAbort = true → cfg.onAbort (reason fields) = true))
    ⟨fun h => ⟨h.1, h.2⟩, fun h => ⟨h.data, h.abort⟩⟩

instance decidableDigestible (cfg : Setup α) (accepts : PyJson → Prop) [DecidablePred accepts] :
    ∀ fuel env client buf, Decidable (Digestible cfg accepts fuel env client buf)
  | 0, _, _, _ => isTrue trivial
  | fuel + 1, env, client, buf =>
    match h : tryDecodeFrame cfg.loads buf with
    | .incomplete | .wireError => isTrue (by simp [Digestible, h])
    | .raises => isFalse (by simp [Digestible, h])
    | .frame .null _ => decidable_of_iff (Down client) (by simp [Digestible, h])
    | .frame (.obj fields) consumed =>
      let next := after cfg (env 0).1 (env 0).2 fields client
      have := decidableDigestible cfg accepts fuel (fun k => env (k + 1)) next (buf.drop consumed)
      decidable_of_iff
        (Accepted cfg accepts client fields ∧ (next.state = .failed ∨ next.state = .closed ∨
          Digestible cfg accepts fuel (fun k => env (k + 1)) next (buf.drop consumed)))
        (by simp [Digestible, h, next])
    | .frame (.bool _) _ | .frame (.int _) _ | .frame (.float _) _ | .frame .nonFinite _
    | .frame (.str _) _ | .frame (.list _) _ => isFalse (by simp [Digestible, h])

/-! ## One round -/

theorem down_fail (now : ℚ) (client : PipeClient) : Down (client.fail now) := by
  unfold Down PipeClient.fail
  simp only [PipeClient.nextBackoff]
  split_ifs with hdown hreconnect
  · tauto
  · exact .inr (.inl rfl)
  · exact .inl rfl

/-- A decoded frame has its header and its payload in the buffer. -/
theorem consumed_le {loads : List UInt8 → Loads} {buf : List UInt8} {obj : PyJson} {consumed : ℕ}
    (h : tryDecodeFrame loads buf = .frame obj consumed) :
      4 ≤ consumed ∧ consumed ≤ buf.length := by
  unfold tryDecodeFrame at h
  simp only at h
  split_ifs at h with hshort hlarge hlen
  split at h
  · obtain ⟨-, rfl⟩ : _ ∧ 4 + _ = consumed := by simpa using h
    omega
  · cases h
  · cases h

theorem handleFrame_rxBuf (now : ℚ) (sends : Bool) (frame : PyJson) :
    (p.handleFrame cfg now sends frame).rxBuf = p.rxBuf := by
  unfold handleFrame
  cases frame with
  | obj fields =>
    simp only
    split_ifs
    · unfold handleData
      simp only
      split_ifs
      · split <;> rfl
      · rfl
    · rfl
    · rfl
  | _ => rfl

theorem checkDone_rxBuf : p.checkDone.rxBuf = p.rxBuf := by
  unfold checkDone
  split_ifs <;> rfl

theorem checkDone_raised : p.checkDone.raised = p.raised := by
  unfold checkDone
  split_ifs <;> rfl

/-- A round that goes on has taken a frame off the buffer. -/
theorem length_round {now : ℚ} {sends : Bool} (h : (p.round cfg now sends).draining = true) :
    (p.round cfg now sends).rxBuf.length < p.rxBuf.length := by
  unfold round at h ⊢
  cases hdec : tryDecodeFrame cfg.loads p.rxBuf with
  | incomplete => simp [hdec] at h
  | wireError => simp [hdec] at h
  | raises => simp [hdec, escape] at h
  | frame obj consumed =>
    obtain ⟨hfour, hle⟩ := consumed_le hdec
    simp only [hdec] at h
    cases obj with
    | null => simp at h
    | _ =>
      simp only [checkDone_rxBuf, handleFrame_rxBuf, List.length_drop]
      omega

theorem isAbort_of_isData {fields : List (PyText × PyJson)} (hdata : isData fields = true) :
    isAbort fields = false := by
  unfold isData at hdata
  unfold isAbort
  split at hdata
  · next kind heq =>
    obtain rfl : kind = text "data" := by simpa using hdata
    decide
  · cases hdata

/-- The owner raises for an object. -/
def OwnerRaises (cfg : Setup α) (now : ℚ) (fields : List (PyText × PyJson)) (p : BytePipe α) :
    Prop :=
  isData fields = true ∧ p.client.state = .established ∧ p.client.onData = true ∧
      cfg.onData now (body fields) p.app = none ∨
    abortRaises cfg fields p.client = true

/-- `_handle_frame` raises for what is no object, and where the owner does. -/
theorem handleFrame_raised (hquiet : p.raised = false) (now : ℚ) (sends : Bool) (frame : PyJson) :
    (p.handleFrame cfg now sends frame).raised = true ↔
      match frame with
      | .obj fields => OwnerRaises cfg now fields p
      | _ => True := by
  cases frame with
  | obj fields =>
    simp only [handleFrame, OwnerRaises]
    split_ifs with hdata habort
    · have hno : abortRaises cfg fields p.client = false := by
        simp [abortRaises, isAbort_of_isData hdata]
      simp only [handleData, hno, Bool.false_eq_true, or_false]
      split_ifs with hready
      · split
        · next heq => simp [hquiet, heq]
        · next heq => simp [escape, hready, heq, hdata]
      · simp only [hquiet, Bool.false_eq_true, false_iff]
        tauto
    · simp [escape, habort]
    · simp [handleControl, hquiet, hdata, habort]
  | null | bool | int | float | nonFinite | str | list => simp [handleFrame, escape]

theorem handleFrame_draining (hdraining : p.draining = true) {now : ℚ} {sends : Bool}
    {frame : PyJson} (hquiet : (p.handleFrame cfg now sends frame).raised = false) :
    (p.handleFrame cfg now sends frame).draining = true := by
  unfold handleFrame at hquiet ⊢
  cases frame with
  | obj fields =>
    simp only at hquiet ⊢
    split_ifs at hquiet ⊢
    · unfold handleData at hquiet ⊢
      simp only at hquiet ⊢
      split_ifs at hquiet ⊢
      · split at hquiet
        · next heq => simpa [heq] using hdraining
        · simp [escape] at hquiet
      · exact hdraining
    · simp [escape] at hquiet
    · exact hdraining
  | null | bool | int | float | nonFinite | str | list => simp [escape] at hquiet

/-- Where nothing was raised, `_handle_frame` has moved the frame-level pipe. -/
theorem handleFrame_client {now : ℚ} {sends : Bool} {fields : List (PyText × PyJson)}
    (hquiet : (p.handleFrame cfg now sends (.obj fields)).raised = false) :
    (p.handleFrame cfg now sends (.obj fields)).client = after cfg now sends fields p.client := by
  by_cases hdata : isData fields = true
  · simp only [handleFrame, after, if_pos hdata, handleData] at hquiet ⊢
    split_ifs at hquiet ⊢
    · split at hquiet
      · rfl
      · simp [escape] at hquiet
    · rfl
  · simp only [handleFrame, after, if_neg hdata] at hquiet ⊢
    by_cases habort : abortRaises cfg fields p.client = true
    · simp [habort, escape] at hquiet
    · rw [if_neg habort]
      rfl

/-! ## The loop -/

theorem drain_stopped (h : p.draining = false) (fuel : ℕ) (env : ℕ → ℚ × Bool) :
    p.drain cfg fuel env = p := by
  cases fuel with
  | zero => rfl
  | succ fuel => simp [drain, h]

/-- A loop that has stopped by itself. -/
theorem survived_iff_of_stopped (h : p.draining = false) {fuel : ℕ} {env : ℕ → ℚ × Bool}
    {P : Prop} (hP : Survived cfg p ↔ P) : Survived cfg (p.drain cfg fuel env) ↔ P := by
  rwa [drain_stopped h]

/-- A loop that an exception has ended. -/
theorem not_survived_of_raised (h : p.raised = true) (hstopped : p.draining = false) {fuel : ℕ}
    {env : ℕ → ℚ × Bool} : ¬ Survived cfg (p.drain cfg fuel env) := by
  rw [drain_stopped hstopped]
  intro hsurvived
  rw [hsurvived.quiet] at h
  cases h

theorem handleFrame_stopped {now : ℚ} {sends : Bool} {frame : PyJson} (hquiet : p.raised = false)
    (h : (p.handleFrame cfg now sends frame).raised = true) :
    (p.handleFrame cfg now sends frame).draining = false := by
  unfold handleFrame at h ⊢
  cases frame with
  | obj fields =>
    simp only at h ⊢
    split_ifs at h ⊢
    · unfold handleData at h ⊢
      simp only at h ⊢
      split_ifs at h ⊢
      · split at h
        · simp [hquiet] at h
        · simp [escape]
      · simp [hquiet] at h
    · rfl
    · simp [handleControl, hquiet] at h
  | null | bool | int | float | nonFinite | str | list => rfl

theorem checkDone_stopped (h : p.draining = false) : p.checkDone.draining = false := by
  unfold checkDone
  split_ifs
  · rfl
  · exact h

/-- The owner raises for what it does not accept. -/
theorem ownerRaises_iff {accepts : PyJson → Prop}
    (haccepts : ∀ now body app, (cfg.onData now body app).isSome = true ↔ accepts body) (now : ℚ)
    (fields : List (PyText × PyJson)) :
    OwnerRaises cfg now fields p ↔ ¬ Accepted cfg accepts p.client fields := by
  constructor
  · rintro (⟨hdata, hready, hon, hnone⟩ | habort) haccepted
    · have hsome := (haccepts now (body fields) p.app).mpr (haccepted.data hdata hready hon)
      simp [hnone] at hsome
    · simp only [abortRaises, Bool.and_eq_true, Bool.not_eq_eq_eq_not, Bool.not_true] at habort
      simp [haccepted.abort habort.1.1 habort.1.2] at habort
  · intro hrefused
    by_contra hquiet
    rw [OwnerRaises, not_or] at hquiet
    obtain ⟨hdata, habort⟩ := hquiet
    refine hrefused ⟨fun hkind hready hon => ?_, fun hkind hon => ?_⟩
    · rw [← haccepts now _ p.app, Option.isSome_iff_ne_none]
      intro hnone
      exact hdata ⟨hkind, hready, hon, hnone⟩
    · by_contra hshown
      exact habort (by simpa [abortRaises, hkind, hon] using hshown)

/-- What a round makes of an object: it raises where the owner does, and else it moves on. -/
theorem round_object {accepts : PyJson → Prop}
    (haccepts : ∀ now body app, (cfg.onData now body app).isSome = true ↔ accepts body)
    (now : ℚ) (sends : Bool) (fields : List (PyText × PyJson)) (hquiet : p.raised = false) :
    let q := p.handleFrame cfg now sends (.obj fields)
    (q.raised = true ∧ q.draining = false ∧ ¬ Accepted cfg accepts p.client fields) ∨
      (q.raised = false ∧ q.client = after cfg now sends fields p.client ∧
        Accepted cfg accepts p.client fields) := by
  intro q
  have hraised : q.raised = true ↔ ¬ Accepted cfg accepts p.client fields :=
    (handleFrame_raised hquiet now sends (.obj fields)).trans (ownerRaises_iff haccepts now fields)
  by_cases hbad : q.raised = true
  · exact .inl ⟨hbad, handleFrame_stopped hquiet hbad, hraised.mp hbad⟩
  · have hgood : q.raised = false := by simpa using hbad
    exact .inr ⟨hgood, handleFrame_client hgood, not_not.mp (mt hraised.mpr hbad)⟩

/-- **A loop survives what it can digest.**  The owner's part is `accepts`: the bodies that
`on_data` does not raise for, whatever state the owner is in. -/
theorem drain_survives_iff {accepts : PyJson → Prop}
    (haccepts : ∀ now body app, (cfg.onData now body app).isSome = true ↔ accepts body)
    {fuel : ℕ} {env : ℕ → ℚ × Bool} (hquiet : p.raised = false) (hdraining : p.draining = true)
    (hfuel : p.rxBuf.length < fuel) :
    Survived cfg (p.drain cfg fuel env) ↔ Digestible cfg accepts fuel env p.client p.rxBuf := by
  induction fuel generalizing p env with
  | zero => omega
  | succ fuel ih =>
    rw [drain, if_pos hdraining, Digestible, round]
    cases hdec : tryDecodeFrame cfg.loads p.rxBuf with
    | incomplete => exact survived_iff_of_stopped rfl (iff_of_true ⟨hquiet, .inl hdec⟩ trivial)
    | wireError =>
      exact survived_iff_of_stopped rfl (iff_of_true ⟨hquiet, .inr (down_fail _ _)⟩ trivial)
    | raises => exact iff_of_false (not_survived_of_raised rfl rfl) id
    | frame obj consumed =>
      obtain ⟨hfour, hle⟩ := consumed_le hdec
      cases obj with
      | null =>
        -- the frame stays where it is, and so does every frame behind it
        refine survived_iff_of_stopped rfl ⟨fun h => ?_, fun h => ⟨hquiet, .inr h⟩⟩
        have hsettled := h.settled
        simpa [hdec] using hsettled
      | obj fields =>
        set popped : BytePipe α := { p with rxBuf := p.rxBuf.drop consumed } with hpopped
        show Survived cfg (drain cfg fuel _
          (popped.handleFrame cfg (env 0).1 (env 0).2 (.obj fields)).checkDone) ↔ _
        set q := popped.handleFrame cfg (env 0).1 (env 0).2 (.obj fields) with hq
        have hobject := round_object (p := popped) haccepts (env 0).1 (env 0).2 fields hquiet
        have hrx : q.rxBuf = popped.rxBuf := handleFrame_rxBuf _ _ _
        have hdrains : q.raised = false → q.draining = true :=
          fun hgood => handleFrame_draining (p := popped) hdraining hgood
        rcases hobject with ⟨hbad, hstopped, hno⟩ | ⟨hgood, hclient, hok⟩
        · exact iff_of_false (not_survived_of_raised (checkDone_raised.trans hbad)
            (checkDone_stopped hstopped)) fun h => hno h.1
        · by_cases hdone : q.client.state = .failed ∨ q.client.state = .closed
          -- the pipe has failed: the loop ends
          · rw [checkDone, if_pos hdone]
            refine survived_iff_of_stopped rfl (iff_of_true ⟨hgood, .inr ?_⟩ ⟨hok, ?_⟩)
            · exact hdone.imp_right .inr
            · rw [hclient] at hdone
              exact hdone.elim .inl fun h => .inr (.inl h)
          · have hlen : q.rxBuf.length < fuel := by
              rw [hrx, hpopped, List.length_drop]
              omega
            rw [checkDone, if_neg hdone, ih hgood (hdrains hgood) hlen, hclient, hrx]
            rw [hclient] at hdone
            constructor
            · intro h
              exact ⟨hok, .inr (.inr h)⟩
            · rintro ⟨-, h | h | h⟩
              · exact absurd (.inl h) hdone
              · exact absurd (.inr h) hdone
              · exact h
      | bool | int | float | nonFinite | str | list =>
        exact iff_of_false (not_survived_of_raised (checkDone_raised.trans rfl)
          (checkDone_stopped rfl)) id

/-- `recv` starts the loop, or the pipe is down. -/
theorem recv_cases (hquiet : p.raised = false) (hidle : p.draining = false) (now : ℚ)
    (result : Recv) :
    (p.recv now result).raised = false ∧
      ((p.recv now result).draining = true ∨
        (p.recv now result).draining = false ∧ Down (p.recv now result).client) := by
  unfold recv
  by_cases hdead : p.client.state = .failed ∨ p.client.state = .closed
  · rw [if_pos hdead]
    exact ⟨hquiet, .inr ⟨hidle, hdead.imp_right .inr⟩⟩
  · rw [if_neg hdead]
    cases (if p.client.connected = true then result else Recv.error) with
    | bytes chunk => exact ⟨hquiet, .inl rfl⟩
    | eof =>
      simp only
      split_ifs
      · exact ⟨hquiet, .inr ⟨hidle, down_fail _ _⟩⟩
      · exact ⟨hquiet, .inl rfl⟩
    | blocked => exact ⟨hquiet, .inl rfl⟩
    | error => exact ⟨hquiet, .inr ⟨hidle, down_fail _ _⟩⟩

/-- What a tick can handle: a pipe that is down reads nothing, and neither does one whose `recv`
fails; otherwise the buffer with the new chunk has to be digestible. -/
def TickDigestible (cfg : Setup α) (accepts : PyJson → Prop) (result : Recv)
    (env : ℕ → ℚ × Bool) (p : BytePipe α) : Prop :=
  let p := p.recv (env 0).1 result
  p.draining = true →
    Digestible cfg accepts (p.rxBuf.length + 1) (fun k => env (k + 1)) p.client p.rxBuf

instance (cfg : Setup α) (accepts : PyJson → Prop) [DecidablePred accepts] (result : Recv)
    (env : ℕ → ℚ × Bool) (p : BytePipe α) : Decidable (TickDigestible cfg accepts result env p) :=
  inferInstanceAs (Decidable (_ = true → _))

/-- **What a tick survives**, for any owner. -/
theorem tick_survives_iff {accepts : PyJson → Prop}
    (haccepts : ∀ now body app, (cfg.onData now body app).isSome = true ↔ accepts body)
    (hquiet : p.raised = false) (hidle : p.draining = false) (result : Recv)
    (env : ℕ → ℚ × Bool) :
    Survived cfg (p.tick cfg result env) ↔ TickDigestible cfg accepts result env p := by
  rw [tick, TickDigestible]
  obtain ⟨hraised, hdraining | ⟨hstopped, hdown⟩⟩ := recv_cases hquiet hidle (env 0).1 result
  · rw [drain_survives_iff haccepts hraised hdraining (Nat.lt_succ_self _)]
    simp [hdraining]
  · refine survived_iff_of_stopped hstopped (iff_of_true ⟨hraised, .inr hdown⟩ ?_)
    simp [hstopped]

end BytePipe

/-! ## The session -/

section Session

variable {ρ : Type}

/-- A `StatusSink`: whether `message` and `log` return for a text.  `ConsoleStatusSink` prints it,
which raises for a character that the console cannot encode.  The program's own texts are ASCII,
which it can; what a partner sends is shown in three places. -/
abbrev StatusSink := PyText → Bool

/-- `ConsoleStatusSink` on a console in UTF-8: a lone surrogate raises `UnicodeEncodeError`. -/
def consoleShows : StatusSink := fun t => t.all fun c => c < 0xD800 || 0xDFFF < c

/-- What `SyncSession.on_data` shows of an app hello; `str` is Python's `str(value)`. -/
def helloText (mode : Mode) (str : PyJson → PyText) (fields : List (PyText × PyJson)) : PyText :=
  let guid := (PyJson.get fields "guid").getD .null
  let version := (PyJson.get fields "version").getD .null
  if guid.equalsText mode.guid then
    text "Partner app hello OK (guid=" ++ str guid ++ text ", version=" ++ str version ++ text ")"
  else text "Partner has incompatible mode: " ++ str guid

/-- `SyncSession.on_data(body)` on a body that nobody has checked; `none` when it raises.  Only a
dict has a `get`, and `int` does not take everything. -/
def SyncSession.onBody (mode : Mode) (ep : Endpoint ρ) (intOfText : PyText → Option ℤ)
    (str : PyJson → PyText) (shows : StatusSink) (now : ℚ) (body : PyJson)
    (session : SyncSession ρ) : Option (SyncSession ρ) :=
  match body with
  | .obj fields =>
    if (PyJson.get fields "op").any (PyJson.equalsText "hello") then
      if shows (helloText mode str fields) then some session else none
    else
      match PyJson.get fields "addr" with
      | none | some .null => some session
      | some addr =>
        match PyJson.get fields "value" with
        | none | some .null => (addr.toInt intOfText).map fun _ => session
        | some value => do
          let addr ← addr.toInt intOfText
          let value ← value.toInt intOfText
          some (session.onData mode ep now (.update addr value))
  | _ => none

/-- The `on_abort` that a `SyncSession` installs. -/
def SyncSession.onAbort (str : PyJson → PyText) (shows : StatusSink) (reason : PyJson) : Bool :=
  shows (text "Partner aborted: " ++ str reason)

/-- A field is `None`, which it is when it is missing. -/
def isNone : Option PyJson → Bool
  | none | some .null => true
  | some _ => false

/-- A field is a number for `int`, or is not there at all. -/
def isNumber (intOfText : PyText → Option ℤ) (field : Option PyJson) : Bool :=
  isNone field || field.any fun json => (json.toInt intOfText).isSome

/-- The bodies that `SyncSession.on_data` can handle: dicts that are an app hello whose text can be
shown, or have no address, or whose address and value are numbers. -/
def BodyAccepted (mode : Mode) (intOfText : PyText → Option ℤ) (str : PyJson → PyText)
    (shows : StatusSink) : PyJson → Prop
  | .obj fields =>
    if (PyJson.get fields "op").any (PyJson.equalsText "hello") then
      shows (helloText mode str fields) = true
    else
      isNone (PyJson.get fields "addr") = true ∨
        isNumber intOfText (PyJson.get fields "addr") = true ∧
          isNumber intOfText (PyJson.get fields "value") = true
  | _ => False

instance (mode : Mode) (intOfText : PyText → Option ℤ) (str : PyJson → PyText)
    (shows : StatusSink) : DecidablePred (BodyAccepted mode intOfText str shows)
  | .obj _ =>
    inferInstanceAs (Decidable (if _ = true then _ = true else _ = true ∨ _ = true ∧ _ = true))
  | .null | .bool _ | .int _ | .float _ | .nonFinite | .str _ | .list _ => isFalse id

/-- Two conversions succeed together when each does. -/
theorem isSome_both {β : Type} (addr value : Option ℤ) (f : ℤ → ℤ → β) :
    (addr.bind fun addr => value.bind fun value => some (f addr value)).isSome
      = (addr.isSome && value.isSome) := by
  cases addr <;> cases value <;> rfl

/-- The body alone decides whether `on_data` raises. -/
theorem isSome_onBody (mode : Mode) (ep : Endpoint ρ) (intOfText : PyText → Option ℤ)
    (str : PyJson → PyText) (shows : StatusSink) (now : ℚ) (body : PyJson)
    (session : SyncSession ρ) :
    (session.onBody mode ep intOfText str shows now body).isSome = true ↔
      BodyAccepted mode intOfText str shows body := by
  cases body with
  | obj fields =>
    simp only [SyncSession.onBody, BodyAccepted]
    by_cases hop : (PyJson.get fields "op").any (PyJson.equalsText "hello") = true
    · rw [if_pos hop, if_pos hop]
      split_ifs with hshown <;> simp [hshown]
    · rw [if_neg hop, if_neg hop]
      cases haddr : PyJson.get fields "addr" with
      | none => simp [isNone]
      | some addr =>
        cases hvalue : PyJson.get fields "value" with
        | none => cases addr <;> simp [isNone, isNumber]
        | some value =>
          cases value with
          | null => cases addr <;> simp [isNone, isNumber]
          | _ => cases addr <;> simp [isNone, isNumber, isSome_both]
  | null | bool | int | float | nonFinite | str | list => simp [SyncSession.onBody, BodyAccepted]

/-- A pipe with the callbacks of a `SyncSession` installed. -/
def sessionSetup (mode : Mode) (ep : Endpoint ρ) (loads : List UInt8 → Loads)
    (display : PyJson → String) (intOfText : PyText → Option ℤ) (str : PyJson → PyText)
    (shows : StatusSink) : BytePipe.Setup (SyncSession ρ) where
  loads := loads
  display := display
  onData := SyncSession.onBody mode ep intOfText str shows
  onPartnerReconnected := SyncSession.onPartnerReconnected
  onAbort := SyncSession.onAbort str shows

/-- **What a partner can do to a tick.**  Take any pipe with a `SyncSession` installed, between two
ticks, in any state and with any engine, any sink, and anything that `recv` may do.  The tick ends
as it should exactly when what is in the buffer can be digested: every payload up to where the pipe
fails is text, every frame is an object, the data for a pipe that is `ESTABLISHED` has a body that
`on_data` accepts, and the reason of an abort can be shown. -/
theorem session_survives_iff (mode : Mode) (ep : Endpoint ρ) (loads : List UInt8 → Loads)
    (display : PyJson → String) (intOfText : PyText → Option ℤ) (str : PyJson → PyText)
    (shows : StatusSink) (p : BytePipe (SyncSession ρ)) (hquiet : p.raised = false)
    (hidle : p.draining = false) (result : Recv) (env : ℕ → ℚ × Bool) :
    (p.tick (sessionSetup mode ep loads display intOfText str shows) result env).Survived
        (sessionSetup mode ep loads display intOfText str shows) ↔
      p.TickDigestible (sessionSetup mode ep loads display intOfText str shows)
        (BodyAccepted mode intOfText str shows) result env :=
  BytePipe.tick_survives_iff (isSome_onBody mode ep intOfText str shows) hquiet hidle result env

end Session

/-! ## Examples -/

def emptyMode : Mode where
  guid := "empty"
  sync := Dict.empty
  runningAddr := none
  readRanges := []
  isRunning _ := true
  covers := by simp [Dict.keys, Dict.empty]

def sessionPipe : BytePipe (SyncSession Ram) where
  client :=
    { code := "secret", peerId := "a", state := .established, joined := true, helloSent := true,
      helloReceived := true, onData := true, onAbort := true, reconnectEnabled := true }
  app := { engine := {}, endpoint := fun _ => 0 }

/-- `str(value)` of a string. -/
def strOfText : PyJson → PyText
  | .str t => t
  | _ => text "None"

def dataSetup : BytePipe.Setup (SyncSession Ram) :=
  sessionSetup emptyMode dictEndpoint Json.asciiLoads (fun _ => "") (fun _ => none) strOfText
    consoleShows

def update : Recv :=
  .bytes (Json.asciiFrame "\x7b\"kind\":\"data\",\"body\":\x7b\"addr\":0,\"value\":4\x7d\x7d")

theorem session_survives_iff_update :
    (sessionPipe.tick dataSetup update fun _ => (0, true)).Survived dataSetup := by
  have hiff := session_survives_iff emptyMode dictEndpoint Json.asciiLoads (fun _ => "")
    (fun _ => none) strOfText consoleShows sessionPipe rfl rfl update fun _ => (0, true)
  rw [← dataSetup] at hiff
  exact hiff.mpr (by decide +kernel)

/-- **An address that is a list**, **bytes that are no text** and **a guid that the console cannot
show**: each lets an exception out of `tick`, and the pipe stays `ESTABLISHED`. -/
theorem tick_raises :
    ([Json.asciiFrame "\x7b\"kind\":\"data\",\"body\":\x7b\"addr\":[],\"value\":4\x7d\x7d",
        Framing.frame [255],
        Json.asciiFrame
          "\x7b\"kind\":\"data\",\"body\":\x7b\"op\":\"hello\",\"guid\":\"\\ud800\"\x7d\x7d"
        ].map fun chunk =>
          let p := sessionPipe.tick dataSetup (.bytes chunk) fun _ => (0, true)
          (p.raised, p.client.state))
      = List.replicate 3 (true, .established) := by
  decide +kernel

end EmuCoop.Bridge
