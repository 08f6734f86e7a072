/-
# What the receiver acknowledges (`chunk_transfer.py`)

`_receive_chunks` answers a data frame with an ACK and writes its chunk afterwards.

* `afterRecv`, `afterLoads`, `afterAck`, `afterWrite` : one round between its operations, with
  `receiveChunks_succ`;
* `Receipt`, `receiving` : what one call has acknowledged and written, under every outcome of
  every operation;
* `ReceiveAt`, `receiveAt_step`, `receiveAt_reaches` : what holds at each point, carried along a run;
* `acked_written_iff` : wherever the call waits for a frame or has ended, what it has
  acknowledged has been written, unless a write was cut short;
* `acked_lost` : an ACK whose chunk never reached the file.

A write that raises may have taken in any part of its chunk.
-/
import StorageNode.ChunkTransfer

namespace FragmentReceiver

/-! ## One round -/

/-- `except Exception`. -/
def giveUp (e : Exn) : Node Bool := if e.isException then .ret false else .raise e

/-- After the write of a chunk. -/
def afterWrite (next : Node Bool) : Except Exn Unit → Node Bool
  | .error e => giveUp e
  | .ok _ => next

/-- After the ACK of a frame. -/
def afterAck (fh : ℕ) (next : Node Bool) (frame : PyObj) : Except Exn Unit → Node Bool
  | .error e => giveUp e
  | .ok _ =>
      match frame.getItem "data" with
      | .ok (.bytes chunk) => .call (.write fh chunk) (afterWrite next)
      | .ok _ => giveUp .typeError
      | .error e => giveUp e

/-- After a frame is decoded. -/
def afterLoads (fh : ℕ) (next : Node Bool) : Except Exn PyObj → Node Bool
  | .error e => giveUp e
  | .ok frame =>
      match frame.getItem "type" with
      | .error e => giveUp e
      | .ok type =>
          if type = .str "data" then
            .call (.send (FrameCodec.encode ackFrame)) (afterAck fh next frame)
          else if type = .str "END" then .ret true
          else next

/-- After a message is received. -/
def afterRecv (fh : ℕ) (next : Node Bool) : Except Exn Raw → Node Bool
  | .error e => giveUp e
  | .ok raw => .call (.pickleLoads raw) (afterLoads fh next)

theorem handled_raise (e : Exn) (k : Option Bool → Node Bool) (hk : k none = .ret false) :
    (if e.isException then pure none else Prog.raise e : Node (Option Bool)).bind k = giveUp e := by
  unfold giveUp
  split
  · exact hk
  · rfl

/-- **A round of `_receive_chunks`**: an exception ends the call. -/
theorem receiveChunks_succ (fh fuel : ℕ) :
    receiveChunks fh (fuel + 1) = .call .recv (afterRecv fh (receiveChunks fh fuel)) := by
  rw [receiveChunks]
  simp only [receiveFrame, op, Prog.perform, Prog.bind_eq, Prog.bind, Prog.tryExcept]
  congr 1
  funext r
  cases r with
  | error e => exact handled_raise e _ rfl
  | ok raw =>
      simp only [Prog.bind, Prog.tryExcept, afterRecv]
      congr 1
      funext r
      cases r with
      | error e => exact handled_raise e _ rfl
      | ok frame =>
          simp only [Prog.bind, afterLoads]
          cases frame.getItem "type" with
          | error e => exact handled_raise e _ rfl
          | ok type =>
              simp only [Prog.ofExcept, Prog.bind]
              by_cases hdata : type = .str "data"
              · simp only [if_pos hdata, Prog.bind, Prog.tryExcept]
                congr 1
                funext r
                cases r with
                | error e => exact handled_raise e _ rfl
                | ok u =>
                    simp only [Prog.bind, afterAck]
                    cases frame.getItem "data" with
                    | error e => exact handled_raise e _ rfl
                    | ok data =>
                        cases data with
                        | bytes chunk =>
                            simp only [Prog.bind, Prog.tryExcept]
                            congr 1
                            funext r
                            cases r with
                            | error e => exact handled_raise e _ rfl
                            | ok u => rfl
                        | _ => exact handled_raise .typeError _ rfl
              · by_cases hend : type = .str "END"
                · simp [hend, Prog.tryExcept]
                · simp [hdata, hend, Prog.tryExcept]

end FragmentReceiver

/-! ## What a call has acknowledged and written -/

/-- The bytes a frame brings. -/
def chunkOf (frame : PyObj) : Bytes :=
  match frame.getItem "data" with
  | .ok (.bytes chunk) => chunk
  | _ => []

/-- What one call has done so far. -/
structure Receipt where
  /-- the chunk of the frame decoded last -/
  chunk : Bytes := []
  acked : Bytes := []
  written : Bytes := []
  /-- a write has raised before it had taken in its whole chunk -/
  cut : Bool := false

/-- The outcomes of an operation, and what they add. -/
def Receipt.exec : (o : NodeOp) → Receipt → Except Exn o.Res → Receipt → Prop
  | .recv, w, _, w' => w' = w
  | .pickleLoads _, w, .ok frame, w' => w' = { w with chunk := chunkOf frame }
  | .pickleLoads _, w, .error _, w' => w' = w
  | .send raw, w, .ok _, w' =>
      w' = if raw = FrameCodec.encode ackFrame then { w with acked := w.acked ++ w.chunk } else w
  | .send _, w, .error _, w' => w' = w
  | .write _ data, w, .ok _, w' => w' = { w with written := w.written ++ data }
  | .write _ data, w, .error _, w' =>
      ∃ part, part <+: data ∧
        w' = { w with written := w.written ++ part, cut := w.cut || decide (part ≠ data) }
  | _, _, _, _ => False

/-- A call of `_receive_chunks` among all outcomes. -/
def receiving : Machine NodeOp NodeOp.Res Exn Receipt where
  exec := Receipt.exec
  env _ _ := False

/-- The call waits for a frame. -/
def Prog.AwaitsFrame (p : Node Bool) : Prop := ∃ k, p = .call .recv k

/-- The call has returned or raised. -/
def Prog.HasEnded (p : Node Bool) : Prop := (∃ completed, p = .ret completed) ∨ ∃ e, p = .raise e

/-- **What is acknowledged has been written.** -/
def Receipt.Stored (w : Receipt) : Prop := w.acked <+: w.written

instance (w : Receipt) : Decidable w.Stored := inferInstanceAs (Decidable (_ <+: _))

/-! ## The points of a run -/

section Points

open FragmentReceiver

/-- Everything acknowledged is written, and nothing more. -/
def Receipt.Level (w : Receipt) : Prop := w.acked = w.written ∧ w.cut = false

/-- What holds at each point of a call. -/
inductive ReceiveAt (fh : ℕ) : Node Bool → Receipt → Prop
  | frame {fuel : ℕ} {w : Receipt} (h : w.Level) : ReceiveAt fh (receiveChunks fh fuel) w
  | loads {fuel : ℕ} {raw : Raw} {w : Receipt} (h : w.Level) :
      ReceiveAt fh (.call (.pickleLoads raw) (afterLoads fh (receiveChunks fh fuel))) w
  | ack {fuel : ℕ} {frame : PyObj} {w : Receipt} (h : w.Level) (hchunk : w.chunk = chunkOf frame) :
      ReceiveAt fh (.call (.send (FrameCodec.encode ackFrame))
        (afterAck fh (receiveChunks fh fuel) frame)) w
  | write {fuel : ℕ} {chunk : Bytes} {w : Receipt} (h : w.acked = w.written ++ chunk)
      (hcut : w.cut = false) :
      ReceiveAt fh (.call (.write fh chunk) (afterWrite (receiveChunks fh fuel))) w
  | returned {completed : Bool} {w : Receipt} (h : w.Stored ↔ w.cut = false) :
      ReceiveAt fh (.ret completed) w
  | raised {e : Exn} {w : Receipt} (h : w.Stored ↔ w.cut = false) : ReceiveAt fh (.raise e) w

variable {fh : ℕ} {w w' : Receipt}

theorem Receipt.Level.stored_iff (h : w.Level) : w.Stored ↔ w.cut = false := by
  refine ⟨fun _ => h.2, fun _ => ?_⟩
  rw [Receipt.Stored, h.1]

/-- A write that stops short leaves an acknowledged byte behind. -/
theorem stored_cut_iff {chunk part : Bytes} (h : w.acked = w.written ++ chunk)
    (hcut : w.cut = false) (hpart : part <+: chunk) :
    Receipt.Stored { w with written := w.written ++ part, cut := w.cut || decide (part ≠ chunk) } ↔
      (w.cut || decide (part ≠ chunk)) = false := by
  rw [hcut, Bool.false_or, decide_eq_false_iff_not, not_not]
  constructor
  · intro hstored
    rw [Receipt.Stored, h, List.prefix_append_right_inj] at hstored
    exact hpart.eq_of_length (le_antisymm hpart.length_le hstored.length_le)
  · rintro rfl
    rw [Receipt.Stored, h]

theorem receiveAt_giveUp {e : Exn} (h : w.Stored ↔ w.cut = false) :
    ReceiveAt fh (giveUp e) w := by
  unfold giveUp
  split
  · exact .returned h
  · exact .raised h

theorem receiveAt_afterRecv {fuel : ℕ} {r : Except Exn Raw} (h : w.Level) :
    ReceiveAt fh (afterRecv fh (receiveChunks fh fuel) r) w := by
  cases r with
  | error e => exact receiveAt_giveUp h.stored_iff
  | ok raw => exact .loads h

theorem receiveAt_afterLoads {fuel : ℕ} {r : Except Exn PyObj} (h : w.Level)
    (hchunk : ∀ frame, r = .ok frame → w.chunk = chunkOf frame) :
    ReceiveAt fh (afterLoads fh (receiveChunks fh fuel) r) w := by
  cases r with
  | error e => exact receiveAt_giveUp h.stored_iff
  | ok frame =>
      simp only [afterLoads]
      cases frame.getItem "type" with
      | error e => exact receiveAt_giveUp h.stored_iff
      | ok type =>
          by_cases hdata : type = .str "data"
          · simp only [if_pos hdata]
            exact .ack h (hchunk frame rfl)
          · by_cases hend : type = .str "END"
            · simp only [if_neg hdata, if_pos hend]
              exact .returned h.stored_iff
            · simp only [if_neg hdata, if_neg hend]
              exact .frame h

/-- **Between the ACK and the write** the chunk is acknowledged only. -/
theorem receiveAt_afterAck {fuel : ℕ} {frame : PyObj} (h : w.Level) (hchunk : w.chunk = chunkOf frame) :
    ReceiveAt fh (afterAck fh (receiveChunks fh fuel) frame (.ok ()))
      { w with acked := w.acked ++ w.chunk } := by
  unfold afterAck
  cases hdata : frame.getItem "data" with
  | error e =>
      have hnil : w.chunk = [] := by rw [hchunk, chunkOf, hdata]
      refine receiveAt_giveUp (Receipt.Level.stored_iff ⟨?_, h.2⟩)
      rw [hnil, List.append_nil, h.1]
  | ok data =>
      cases data with
      | bytes chunk =>
          have heq : w.chunk = chunk := by rw [hchunk, chunkOf, hdata]
          exact .write (by rw [h.1, heq]) h.2
      | _ =>
          have hnil : w.chunk = [] := by rw [hchunk, chunkOf, hdata]
          refine receiveAt_giveUp (Receipt.Level.stored_iff ⟨?_, h.2⟩)
          rw [hnil, List.append_nil, h.1]

/-- **One step.** -/
theorem receiveAt_step {p p' : Node Bool} (h : ReceiveAt fh p w) (hs : receiving.Step (p, w) (p', w')) :
    ReceiveAt fh p' w' := by
  cases h with
  | @frame fuel _ h =>
      cases fuel with
      | zero =>
          cases hs with
          | env he => exact he.elim
      | succ fuel =>
          rw [receiveChunks_succ] at hs
          cases hs with
          | env he => exact he.elim
          | call he =>
              obtain rfl : w' = w := he
              exact receiveAt_afterRecv h
  | loads h =>
      cases hs with
      | env he => exact he.elim
      | @call _ _ _ _ r he =>
          cases r with
          | error e =>
              obtain rfl : w' = w := he
              exact receiveAt_giveUp h.stored_iff
          | ok frame =>
              obtain rfl : w' = { w with chunk := chunkOf frame } := he
              refine receiveAt_afterLoads h ?_
              rintro _ ⟨⟩
              rfl
  | ack h hchunk =>
      cases hs with
      | env he => exact he.elim
      | @call _ _ _ _ r he =>
          cases r with
          | error e =>
              obtain rfl : w' = w := he
              exact receiveAt_giveUp h.stored_iff
          | ok u =>
              change w' = if _ then _ else _ at he
              rw [if_pos rfl] at he
              subst he
              exact receiveAt_afterAck h hchunk
  | write h hcut =>
      cases hs with
      | env he => exact he.elim
      | @call _ _ _ _ r he =>
          cases r with
          | error e =>
              obtain ⟨part, hpart, rfl⟩ := he
              exact receiveAt_giveUp (stored_cut_iff h hcut hpart)
          | ok u =>
              obtain rfl : w' = _ := he
              exact .frame ⟨h, hcut⟩
  | returned h =>
      cases hs with
      | env he => exact he.elim
  | raised h =>
      cases hs with
      | env he => exact he.elim

/-- **A whole run.** -/
theorem receiveAt_reaches {fuel : ℕ} {c : Node Bool × Receipt}
    (h : receiving.Reaches (receiveChunks fh fuel, {}) c) : ReceiveAt fh c.1 c.2 := by
  induction h with
  | refl => exact .frame ⟨rfl, rfl⟩
  | tail _ hs ih => exact receiveAt_step ih hs

/-- Between its rounds and after them a call has written what it has acknowledged. -/
theorem stored_iff_of_receiveAt {p : Node Bool} (h : ReceiveAt fh p w)
    (hp : Prog.AwaitsFrame p ∨ Prog.HasEnded p) : w.Stored ↔ w.cut = false := by
  cases h with
  | frame h => exact h.stored_iff
  | loads h => exact h.stored_iff
  | ack h _ => exact h.stored_iff
  | write h _ => rcases hp with ⟨k, hk⟩ | ⟨completed, hk⟩ | ⟨e, hk⟩ <;> cases hk
  | returned h => exact h
  | raised h => exact h

end Points

/-- **An ACK is sent only for data that reached the file**, wherever the call waits for a frame
or has ended, exactly when no write of the call was cut short. -/
theorem acked_written_iff {fh fuel : ℕ} {p : Node Bool} {w : Receipt}
    (h : receiving.Reaches (FragmentReceiver.receiveChunks fh fuel, {}) (p, w))
    (hp : Prog.AwaitsFrame p ∨ Prog.HasEnded p) : w.Stored ↔ w.cut = false :=
  stored_iff_of_receiveAt (receiveAt_reaches h) hp

/-! ## One frame -/

section Frame

open FragmentReceiver

variable (fh fuel : ℕ)

/-- A frame arrives. -/
theorem reaches_frame (frame : PyObj) (w : Receipt) :
    receiving.Reaches (receiveChunks fh (fuel + 1), w)
      (afterLoads fh (receiveChunks fh fuel) (.ok frame), { w with chunk := chunkOf frame }) := by
  rw [receiveChunks_succ]
  have hrecv : receiving.Step (.call .recv (afterRecv fh (receiveChunks fh fuel)), w)
      (afterRecv fh (receiveChunks fh fuel) (.ok (.pickled frame)), w) := .call rfl
  have hloads : receiving.Step
      (.call (.pickleLoads (.pickled frame)) (afterLoads fh (receiveChunks fh fuel)), w)
      (afterLoads fh (receiveChunks fh fuel) (.ok frame), { w with chunk := chunkOf frame }) :=
    .call rfl
  exact (Relation.ReflTransGen.single hrecv).tail hloads

/-- A data frame arrives and is acknowledged. -/
theorem reaches_acked (chunk : Bytes) (w : Receipt) :
    receiving.Reaches (receiveChunks fh (fuel + 1), w)
      (.call (.write fh chunk) (afterWrite (receiveChunks fh fuel)),
        { w with chunk := chunk, acked := w.acked ++ chunk }) := by
  have hsend : receiving.Step
      (.call (.send (FrameCodec.encode ackFrame))
        (afterAck fh (receiveChunks fh fuel) (dataFrame chunk)), { w with chunk := chunk })
      (afterAck fh (receiveChunks fh fuel) (dataFrame chunk) (.ok ()),
        { w with chunk := chunk, acked := w.acked ++ chunk }) := .call rfl
  exact (reaches_frame fh fuel (dataFrame chunk) w).tail hsend

theorem reaches_stored (chunk : Bytes) (w : Receipt) :
    receiving.Reaches (receiveChunks fh (fuel + 1), w)
      (receiveChunks fh fuel,
        { w with chunk := chunk, acked := w.acked ++ chunk, written := w.written ++ chunk }) := by
  have hwrite : receiving.Step
      (.call (.write fh chunk) (afterWrite (receiveChunks fh fuel)),
        { w with chunk := chunk, acked := w.acked ++ chunk })
      (receiveChunks fh fuel,
        { w with chunk := chunk, acked := w.acked ++ chunk, written := w.written ++ chunk }) :=
    .call (r := .ok ()) rfl
  exact (reaches_acked fh fuel chunk w).tail hwrite

/-- The disk takes in a part of the chunk. -/
theorem reaches_lost {part chunk : Bytes} (hpart : part <+: chunk) (h : part ≠ chunk)
    (w : Receipt) :
    receiving.Reaches (receiveChunks fh (fuel + 1), w)
      (.ret false, { chunk := chunk, acked := w.acked ++ chunk, written := w.written ++ part,
                     cut := true }) := by
  have hcut : Receipt.exec (.write fh chunk) { w with chunk := chunk, acked := w.acked ++ chunk }
      (.error .osError)
      { chunk := chunk, acked := w.acked ++ chunk, written := w.written ++ part, cut := true } := by
    refine ⟨part, hpart, ?_⟩
    rw [decide_eq_true h, Bool.or_true]
  have hwrite : receiving.Step
      (.call (.write fh chunk) (afterWrite (receiveChunks fh fuel)),
        { w with chunk := chunk, acked := w.acked ++ chunk })
      (afterWrite (receiveChunks fh fuel) (.error .osError),
        { chunk := chunk, acked := w.acked ++ chunk, written := w.written ++ part, cut := true }) :=
    .call hcut
  exact (reaches_acked fh fuel chunk w).tail hwrite

end Frame

/-- Two chunks with a frame of another type between them are acknowledged and written, and of a
third one the disk takes in a part. -/
theorem acked_written_stored :
    Receipt.Stored { chunk := [4, 5], acked := [1, 2, 3, 4, 5], written := [1, 2, 3, 4],
                     cut := true } ↔ true = false := by
  have hother := reaches_frame 0 2 startFrame { chunk := [1], acked := [1], written := [1] }
  have hrun := (((reaches_stored 0 3 [1] {}).trans hother).trans
    (reaches_stored 0 1 [2, 3] { acked := [1], written := [1] })).trans
    (reaches_lost 0 0 (show ([4] : Bytes) <+: [4, 5] by decide) (by decide)
      { chunk := [2, 3], acked := [1, 2, 3], written := [1, 2, 3] })
  exact acked_written_iff hrun (Or.inr (Or.inl ⟨false, rfl⟩))

/-- The chunk is acknowledged and the write of it fails. -/
theorem acked_lost :
    ∃ w, receiving.Reaches (FragmentReceiver.receiveChunks 0 1, {}) (.ret false, w) ∧
      Prog.HasEnded (.ret false) ∧ w.acked = [7] ∧ w.written = [] ∧ ¬ w.Stored :=
  ⟨_, reaches_lost 0 0 (List.nil_prefix (l := [7])) (by decide) {}, Or.inl ⟨false, rfl⟩, rfl, rfl,
    by decide⟩
