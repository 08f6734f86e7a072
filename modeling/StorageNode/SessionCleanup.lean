/-
# What both transfers clean up with

The setting in which one transfer runs in arbitrary surroundings, together with a record of
whether every failure so far was one the code can bear (`covers`).

* `cleanupSetting`, `Fine`, `Spoiled` : the record is good and the request is still in the
  ledger; the record is spoiled and it is as well;
* `Caught`, `specExn_caught`, `spec_handler` : an operation whose failures the code bears in
  part, and the `except` clause that names them;
* `spec_unregister` : the last statement of both transfers;
* `of_ended` : a transfer that has ended is where its specification leads.
-/
import StorageNode.SessionWorld

open ConnectionLedger

namespace SessionWorld

/-- Which operations, resolved by which choices in which worlds, the code can bear. -/
abbrev Covers : Type := NodeOp → SessionChoice → SessionWorld → Bool

/-- **What a transfer bears**: answers it accepts, exceptions it catches, and an `unregister`
that comes far enough. -/
def bears (accepts : SessionWorld → NodeOp → SessionChoice → Bool)
    (catches : SessionWorld → NodeOp → Exn → Bool) : Covers := fun o c w =>
  match o with
  | .ledgerUnregister entry => unregisterCovers entry w.ledger c.ledger
  | o => accepts w o c && c.fault.all (catches w o)

/-- **The setting of one transfer**, with the record.  Operations fail only where the
`premise` allows it. -/
def cleanupSetting (covers : Covers) (premise : SessionWorld → Prop) :
    Setting NodeOp NodeOp.Res Exn (SessionWorld × Bool) where
  exec o v r v' := ∃ c, (session.tracked fun _ => covers).exec () o c v = some (r, v') ∧
    (c.fault ≠ none → premise v.1)
  env _ _ := False
  guar _ _ := True
  inv _ := True

/-- The operations on the socket, the frames and the files. -/
def inSession : NodeOp → Bool
  | .forwardPort _ => false
  | .ledgerRegister _ => false
  | .ledgerUnregister _ => false
  | _ => true

/-- Such an operation touches neither the ledger nor the router. -/
theorem perform_spec {o : NodeOp} (ho : inSession o = true) {c : SessionChoice}
    {w w' : SessionWorld} {r : Except Exn o.Res} (h : w.perform c o = some (r, w')) :
    w'.ledger = w.ledger ∧ w'.forwarded = w.forwarded ∧ ∃ a, r = .ok a := by
  cases o with
  | forwardPort mapping => exact absurd ho (by simp [inSession])
  | ledgerRegister entry => exact absurd ho (by simp [inSession])
  | ledgerUnregister entry => exact absurd ho (by simp [inSession])
  | pickleLoads raw =>
      cases raw with
      | garbage => exact absurd h (by simp [perform])
      | pickled o =>
          obtain ⟨rfl, rfl⟩ := h
          exact ⟨rfl, rfl, _, rfl⟩
  | send raw =>
      simp only [perform, Option.ite_none_right_eq_some, Option.some.injEq, Prod.mk.injEq] at h
      obtain ⟨-, rfl, rfl⟩ := h
      exact ⟨rfl, rfl, _, rfl⟩
  | recv =>
      simp only [perform, Option.ite_none_right_eq_some, Option.some.injEq, Prod.mk.injEq] at h
      obtain ⟨-, rfl, rfl⟩ := h
      exact ⟨rfl, rfl, _, rfl⟩
  | seek fh offset =>
      simp only [perform, Option.ite_none_right_eq_some, Option.some.injEq, Prod.mk.injEq] at h
      obtain ⟨-, rfl, rfl⟩ := h
      exact ⟨rfl, rfl, _, rfl⟩
  | _ =>
      obtain ⟨rfl, rfl⟩ := h
      exact ⟨rfl, rfl, _, rfl⟩

theorem afterFault_eq {o : NodeOp} (ho : inSession o = true) (w : SessionWorld) :
    w.afterFault o = w := by
  cases o with
  | forwardPort mapping => exact absurd ho (by simp [inSession])
  | _ => rfl

section Rules

variable {covers : Covers} {premise : SessionWorld → Prop} {file : Option (List Char)}

theorem settled (P : SessionWorld × Bool → Prop) : (cleanupSetting covers premise).Settled P :=
  ⟨fun _ _ _ h => h.elim, fun _ _ => trivial⟩

/-- The record is good, and neither the ledger nor the router has been touched. -/
def Fine (file : Option (List Char)) (A : SessionWorld → Prop) (v : SessionWorld × Bool) : Prop :=
  v.2 = true ∧ v.1.ledger = file ∧ v.1.forwarded = [] ∧ A v.1

/-- The record is spoiled, and the ledger is as it was. -/
def Spoiled (file : Option (List Char)) (v : SessionWorld × Bool) : Prop :=
  v.2 = false ∧ v.1.ledger = file

/-- One operation: it fails, or is performed, and the record tells whether that is borne. -/
theorem specExn_op {o : NodeOp} (ho : inSession o = true) {A : SessionWorld → Prop}
    {B : o.Res → SessionWorld × Bool → Prop} {E : Exn → SessionWorld × Bool → Prop}
    (hok : ∀ w c a w', A w → c.fault = none → w.perform c o = some (.ok a, w') →
      w'.ledger = file → w'.forwarded = [] → B a (w', covers o c w))
    (herr : ∀ w c e, A w → c.fault = some e → premise w → o.mayRaise e = true →
      w.ledger = file → w.forwarded = [] → E e (w, covers o c w)) :
    (cleanupSetting covers premise).SpecExn (Fine file A) (op o) B E := by
  refine Setting.triple_perform (settled _) (fun _ => settled _) ?_
  rintro ⟨w, b⟩ r ⟨w', b'⟩ ⟨rfl, hledger, hforwarded, hw⟩ ⟨c, he, hc⟩
  obtain ⟨he, hb⟩ := Pool.exec_tracked he
  obtain rfl : b' = covers o c w := hb
  refine ⟨trivial, ?_⟩
  have hledger : w.ledger = file := hledger
  have hforwarded : w.forwarded = [] := hforwarded
  rcases exec_cases he with ⟨e, hf, hm, rfl, hw'⟩ | ⟨hf, hp⟩
  · obtain rfl : w' = w := hw'.trans (afterFault_eq ho w)
    exact herr _ c e hw hf (hc (by simp [hf])) hm hledger hforwarded
  · obtain ⟨hl, hfw, a, rfl⟩ := perform_spec ho hp
    exact hok w c a w' hw hf hp (hl.trans hledger) (hfw.trans hforwarded)

/-- What an exception leaves: the record is good when the exception is caught. -/
def Caught (caught : Exn → Bool) (file : Option (List Char)) (A : SessionWorld → Prop) (e : Exn)
    (v : SessionWorld × Bool) : Prop :=
  if caught e = true then Fine file A v else Spoiled file v

theorem caught_of_fine {caught : Exn → Bool} {A : SessionWorld → Prop} {e : Exn}
    {v : SessionWorld × Bool} (he : caught e = true) (h : Fine file A v) :
    Caught caught file A e v := by
  rw [Caught, if_pos he]
  exact h

theorem caught_of_spoiled {caught : Exn → Bool} {A : SessionWorld → Prop} {e : Exn}
    {v : SessionWorld × Bool} (he : caught e = false) (h : Spoiled file v) :
    Caught caught file A e v := by
  rw [Caught, if_neg (by rw [he]; decide)]
  exact h

theorem caught_mono {caught : Exn → Bool} {A A' : SessionWorld → Prop} {e : Exn}
    {v : SessionWorld × Bool} (hA : ∀ w, A w → A' w) (h : Caught caught file A e v) :
    Caught caught file A' e v := by
  unfold Caught at h ⊢
  split
  · next he =>
      rw [if_pos he] at h
      exact ⟨h.1, h.2.1, h.2.2.1, hA v.1 h.2.2.2⟩
  · next he => rwa [if_neg he] at h

/-- **One operation**: the code bears the exceptions it catches. -/
theorem specExn_caught {o : NodeOp} (ho : inSession o = true) {caught : Exn → Bool}
    {A : SessionWorld → Prop} {B : o.Res → SessionWorld → Prop}
    (hcov : ∀ w c, A w → covers o c w = c.fault.all caught)
    (hB : ∀ w c a w', A w → c.fault = none → w.perform c o = some (.ok a, w') → B a w') :
    (cleanupSetting covers premise).SpecExn (Fine file A) (op o) (fun a => Fine file (B a))
      (fun e v => o.mayRaise e = true ∧ Caught caught file A e v) := by
  refine specExn_op ho ?_ ?_
  · intro w c a w' hw hf hp hl hfw
    exact ⟨by rw [hcov w c hw, hf]; rfl, hl, hfw, hB w c a w' hw hf hp⟩
  · intro w c e hw hf _ hm hl hfw
    have hall : covers o c w = caught e := by rw [hcov w c hw, hf, Option.all_some]
    refine ⟨hm, ?_⟩
    cases he : caught e with
    | true => exact caught_of_fine he ⟨hall.trans he, hl, hfw, hw⟩
    | false => exact caught_of_spoiled he ⟨hall.trans he, hl⟩

/-- An operation whose failure the code does not bear. -/
theorem specExn_strict {o : NodeOp} (ho : inSession o = true) {A : SessionWorld → Prop}
    {B : o.Res → SessionWorld → Prop}
    (hcov : ∀ w c, A w → covers o c w = c.fault.all fun _ => false)
    (hB : ∀ w c a w', A w → c.fault = none → w.perform c o = some (.ok a, w') → B a w') :
    (cleanupSetting covers premise).SpecExn (Fine file A) (op o) (fun a => Fine file (B a))
      (fun e v => o.mayRaise e = true ∧ Spoiled file v) :=
  Setting.specExn_mono (fun _ h => h) (fun _ _ h => h) (fun _ _ h => h) (specExn_caught ho hcov hB)

theorem spec_strict {o : NodeOp} (ho : inSession o = true) {A : SessionWorld → Prop}
    {B : o.Res → SessionWorld → Prop}
    (hcov : ∀ w c, A w → covers o c w = c.fault.all fun _ => false)
    (hB : ∀ w c a w', A w → c.fault = none → w.perform c o = some (.ok a, w') → B a w') :
    (cleanupSetting covers premise).Spec (Fine file A) (op o) (fun a => Fine file (B a))
      (Spoiled file) :=
  Setting.spec_of_specExn (fun _ _ h => h.2) (specExn_strict ho hcov hB)

/-- **An `except` clause** that names what is caught, and returns. -/
theorem spec_handler {α : Type} {p : Node α} {P : SessionWorld × Bool → Prop}
    {A : SessionWorld → Prop} {B : α → SessionWorld × Bool → Prop} {caught : Exn → Bool} {a : α}
    (hp : (cleanupSetting covers premise).SpecExn P p B (Caught caught file A))
    (ha : ∀ v, Fine file A v → B a v) :
    (cleanupSetting covers premise).Spec P
      (p.tryExcept fun e => if caught e then pure a else Prog.raise e) B (Spoiled file) := by
  refine Setting.spec_tryExcept_exn hp fun e => ?_
  cases he : caught e with
  | true =>
      refine Setting.spec_ret (settled _) fun v hv => ha v ?_
      rwa [Caught, if_pos he] at hv
  | false =>
      refine Setting.spec_raise (settled _) fun v hv => ?_
      rwa [Caught, if_neg (by rw [he]; decide)] at hv

/-- An operation that leaves the number of connections, the frames and the file alone. -/
def keepsSession : NodeOp → Bool
  | .newSocket => false
  | .bindSocket _ _ => false
  | .closeSocket => false
  | .send _ => false
  | .openFile _ _ => false
  | .closeFile _ => false
  | o => inSession o

theorem perform_keeps {o : NodeOp} (ho : keepsSession o = true) {c : SessionChoice}
    {w w' : SessionWorld} {r : Except Exn o.Res} (h : w.perform c o = some (r, w')) : w' = w := by
  cases o with
  | pickleLoads raw =>
      cases raw with
      | garbage => exact absurd h (by simp [perform])
      | pickled o => exact (Prod.mk.inj (Option.some.inj h)).2.symm
  | recv =>
      simp only [perform, Option.ite_none_right_eq_some, Option.some.injEq, Prod.mk.injEq] at h
      exact h.2.2.symm
  | seek fh offset =>
      simp only [perform, Option.ite_none_right_eq_some, Option.some.injEq, Prod.mk.injEq] at h
      exact h.2.2.symm
  | _ => first
    | exact (Prod.mk.inj (Option.some.inj h)).2.symm
    | simp [keepsSession, inSession] at ho

theorem bears_eq {accepts : SessionWorld → NodeOp → SessionChoice → Bool}
    {catches : SessionWorld → NodeOp → Exn → Bool} {o : NodeOp} (ho : inSession o = true)
    {caught : Exn → Bool} {w : SessionWorld} {c : SessionChoice} (ha : accepts w o c = true)
    (hc : catches w o = caught) : bears accepts catches o c w = c.fault.all caught := by
  have h : bears accepts catches o c w = (accepts w o c && c.fault.all (catches w o)) := by
    cases o with
    | ledgerUnregister entry => exact absurd ho (by simp [inSession])
    | _ => rfl
  rw [h, ha, hc, Bool.true_and]

theorem inSession_of_keeps {o : NodeOp} (ho : keepsSession o = true) : inSession o = true := by
  cases o with
  | forwardPort mapping => simp [keepsSession, inSession] at ho
  | ledgerRegister entry => simp [keepsSession, inSession] at ho
  | ledgerUnregister entry => simp [keepsSession, inSession] at ho
  | _ => rfl

/-- An operation that keeps the session. -/
theorem specExn_keep {accepts : SessionWorld → NodeOp → SessionChoice → Bool}
    {catches : SessionWorld → NodeOp → Exn → Bool} {A : SessionWorld → Prop} {o : NodeOp}
    {caught : Exn → Bool} (ho : keepsSession o = true)
    (ha : ∀ w c, A w → accepts w o c = true) (hc : ∀ w, A w → catches w o = caught) :
    (cleanupSetting (bears accepts catches) premise).SpecExn (Fine file A) (op o)
      (fun _ => Fine file A) (fun e v => o.mayRaise e = true ∧ Caught caught file A e v) := by
  have hin := inSession_of_keeps ho
  refine specExn_caught hin (fun w c hw => bears_eq hin (ha w c hw) (hc w hw)) ?_
  intro w c a w' hw _ hp
  rw [perform_keeps ho hp]
  exact hw

/-! ## The end of both transfers -/

/-- The node asks no router, or has one. -/
def routerPresent (cfg : Config) : Bool := cfg.isLocal || cfg.hosted || cfg.router

/-- The transfer has cleaned up exactly when the record is good. -/
def Settles (cfg : Config) (request : Dict) (port : Json) (v : SessionWorld × Bool) : Prop :=
  Clean cfg request port v.1 ↔ v.2 = true ∧ routerPresent cfg = true

/-- With the request still in the ledger the session is not clean. -/
theorem not_clean_of_kept {cfg : Config} {request : Dict} {port : Json} {w : SessionWorld}
    (hreg : LedgerContains file request) (hkept : w.ledger = file) : ¬ Clean cfg request port w := by
  intro hclean
  have hnot := hclean.unregistered
  rw [hkept] at hnot
  exact absurd hreg hnot

/-- With the request still in the ledger nothing has been cleaned up. -/
theorem settles_of_spoiled {cfg : Config} {request : Dict} {port : Json}
    {v : SessionWorld × Bool} (hreg : LedgerContains file request) (h : Spoiled file v) :
    Settles cfg request port v := by
  constructor
  · exact fun hclean => absurd hclean (not_clean_of_kept hreg h.2)
  · rintro ⟨htrue, -⟩
    rw [h.1] at htrue
    exact absurd htrue (by decide)

/-- **A request that names a shard settles, and any other one stays in the ledger.** -/
theorem clean_iff_of_settles {cfg : Config} {request : Dict} {port : Json}
    {v : SessionWorld × Bool} (hreg : LedgerContains file request)
    (hsettles : ∀ id, request.getItem "shard_id" = .ok (.str id) → Settles cfg request port v)
    (hkept : (¬ ∃ id, request.getItem "shard_id" = .ok (.str id)) → v.1.ledger = file) :
    Clean cfg request port v.1 ↔ v.2 = true ∧ routerPresent cfg = true ∧
      ∃ id, request.getItem "shard_id" = .ok (.str id) := by
  by_cases hshard : ∃ id, request.getItem "shard_id" = .ok (.str id)
  · obtain ⟨id, hid⟩ := hshard
    exact (hsettles id hid).trans ⟨fun h => ⟨h.1, h.2, id, hid⟩, fun h => ⟨h.1, h.2.1⟩⟩
  · refine ⟨fun hclean => ?_, fun h => absurd h.2.2 hshard⟩
    exact absurd hclean (not_clean_of_kept hreg (hkept hshard))

/-- Without a proper shard id nothing more is done. -/
theorem spec_unnamed {α : Type} {request : Dict} {A E : SessionWorld × Bool → Prop}
    (hshard : ¬ ∃ id, request.getItem "shard_id" = .ok (.str id)) {directory : PyStr}
    {f : Json → PyStr → Node α} (hA : ∀ v, A v → E v) :
    (cleanupSetting covers premise).Spec A
      ((Prog.ofExcept (request.getItem "shard_id")).bind fun shardId =>
        (Prog.ofExcept (joinPath directory shardId)).bind (f shardId))
      (fun _ _ => False) E := by
  cases hid : request.getItem "shard_id" with
  | error e => exact Setting.spec_raise (settled _) hA
  | ok shardId =>
      cases shardId with
      | str id => exact absurd ⟨id, hid⟩ hshard
      | _ => exact Setting.spec_raise (settled _) hA

/-- The last statements of both transfers. -/
def releasePort (cfg : Config) (request : Dict) (port : Json) : Node Unit := do
  closeRouterPort cfg port
  let _ ← op (.ledgerUnregister request)
  pure ()

/-- **Deleting the mapping and unregistering.** -/
theorem spec_releasePort {cfg : Config} {request : Dict} {port : Json} {before : List Json}
    (hread : readFile file = .ok (.arr before))
    (hmem : before.any (· == .obj request) = true)
    (hforward : ∀ mapping c w, covers (.forwardPort mapping) c w = c.fault.all fun _ => false)
    (hunregister : ∀ entry c w,
      covers (.ledgerUnregister entry) c w = unregisterCovers entry w.ledger c.ledger) :
    (cleanupSetting covers premise).Spec (Fine file fun w => w.socket = none)
      (releasePort cfg request port) (fun _ => Settles cfg request port)
      (Settles cfg request port) := by
  have hreg : LedgerContains file request := ⟨before, nextRead_eq_iff.mpr hread, hmem⟩
  -- after the router: the call was made, if one has to be made and there is a router
  set Asked : SessionWorld × Bool → Prop := fun v => v.2 = true ∧ v.1.ledger = file ∧
    v.1.socket = none ∧
    ((cfg.isLocal = false → cfg.hosted = false →
      ∃ mapping ∈ v.1.forwarded, mapping.port = port ∧ mapping.disable = true) ↔
        routerPresent cfg = true) with hAsked
  have hunreg : (cleanupSetting covers premise).Spec Asked (op (.ledgerUnregister request))
      (fun _ => Settles cfg request port) (Settles cfg request port) := by
    refine Setting.spec_perform (settled _) (fun _ => settled _) (settled _) ?_
    rintro ⟨w, b⟩ r ⟨w', b'⟩ ⟨rfl, hledger, hsocket, hrouter⟩ ⟨c, he, -⟩
    obtain ⟨he, hb⟩ := Pool.exec_tracked he
    have hb' : b' = unregisterCovers request w.ledger c.ledger := by
      rw [← hunregister]
      exact hb
    refine ⟨trivial, ?_⟩
    rcases exec_cases he with ⟨e, -, hm, -, -⟩ | ⟨-, hp⟩
    · simp [NodeOp.mayRaise] at hm
    · obtain ⟨⟨r', lw⟩, hrun, heq⟩ := Option.map_eq_some_iff.mp hp
      simp only [Prod.mk.injEq] at heq
      obtain ⟨rfl, rfl⟩ := heq
      have hledger : w.ledger = file := hledger
      rw [hledger] at hrun hb'
      have hiff := unregisterCovers_iff hread hmem hrun
      have hsettles : Settles cfg request port ({ w with ledger := lw.file }, b') := by
        constructor
        · intro hclean
          exact ⟨by rw [hb']; exact hiff.mpr hclean.unregistered, hrouter.mp hclean.unmapped⟩
        · rintro ⟨htrue, hpresent⟩
          rw [hb'] at htrue
          exact ⟨hsocket, hiff.mp htrue, hrouter.mpr hpresent⟩
      cases r' with
      | ok b => exact hsettles
      | error e => exact hsettles
  refine Setting.spec_bind (B := fun _ => Asked) ?_ fun _ =>
    Setting.spec_bind hunreg fun _ => Setting.spec_ret (settled _) fun _ h => h
  unfold closeRouterPort
  split
  · next hneeds =>
      simp only [Bool.and_eq_true, Bool.not_eq_true'] at hneeds
      obtain ⟨⟨hlocal, hhosted⟩, hrouter⟩ := hneeds
      refine Setting.spec_bind (B := fun _ => Asked) ?_ fun _ =>
        Setting.spec_ret (settled _) fun _ h => h
      refine Setting.spec_perform (settled _) (fun _ => settled _) (settled _) ?_
      rintro ⟨w, b⟩ r ⟨w', b'⟩ ⟨rfl, hledger, -, hsocket⟩ ⟨c, he, -⟩
      obtain ⟨he, hb⟩ := Pool.exec_tracked he
      have hb' : b' = c.fault.all fun _ => false := by
        rw [← hforward]
        exact hb
      refine ⟨trivial, ?_⟩
      rcases exec_cases he with ⟨e, hf, -, rfl, rfl⟩ | ⟨hf, hp⟩
      · refine settles_of_spoiled hreg ⟨?_, hledger⟩
        rw [hb', hf]
        rfl
      · obtain ⟨rfl, rfl⟩ := hp
        refine ⟨?_, hledger, hsocket, ?_⟩
        · rw [hb', hf]
          rfl
        · simp [routerPresent, hrouter]
  · next hneeds =>
      refine Setting.spec_ret (settled _) ?_
      rintro v ⟨htrue, hledger, hforwarded, hsocket⟩
      refine ⟨htrue, hledger, hsocket, ?_⟩
      rw [hforwarded]
      cases hl : cfg.isLocal <;> cases hh : cfg.hosted <;> cases hr : cfg.router <;>
        simp_all [routerPresent]

end Rules

/-- **A transfer that has ended** is where its specification leads. -/
theorem of_ended {covers : Covers} {meets : Pool.Condition Unit NodeOp SessionChoice
      (SessionWorld × Bool)} {premise : SessionWorld → Prop}
    (hmeets : ∀ i o c v, meets i o c v → c.fault ≠ none → premise v.1)
    {p : Node Unit} {v₀ : SessionWorld × Bool} {P Q : SessionWorld × Bool → Prop}
    (hspec : (cleanupSetting covers premise).Spec P p (fun _ => Q) Q) (hstart : P v₀)
    {s : Pool.Conf Unit NodeOp NodeOp.Res Exn (SessionWorld × Bool) Unit}
    (hrun : (session.tracked fun _ => covers).Reaches meets (fun _ => p, v₀) s)
    (hend : (s.1 ()).ended = true) : Q s.2 := by
  have hwp := Pool.wp_reaches _ _ (fun _ : Unit => cleanupSetting covers premise)
    (fun i o c v r v' hm he => ⟨c, he, hmeets i o c v hm⟩) (fun _ _ _ _ hij => absurd rfl hij)
    (fun _ e => e.elim) hrun (fun _ => hspec v₀ hstart) ()
  cases hp : s.1 () with
  | ret a =>
      rw [hp] at hwp
      exact (hwp _ .refl).2
  | raise e =>
      rw [hp] at hwp
      exact (hwp _ .refl).2
  | call o k =>
      rw [hp] at hend
      exact absurd hend Bool.false_ne_true
  | hang =>
      rw [hp] at hend
      exact absurd hend Bool.false_ne_true

end SessionWorld
