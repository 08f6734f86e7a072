/-
# Probed ports (`node_utilities.py`)

`check_zmq_bind` probes a port on the loopback address; a transfer and the command listener
bind it on `config.local_ip`.

* `Endpoint`, `Endpoint.Conflicts` : which binds exclude each other;
* `PortTable`, `PortTable.exec` : the endpoints that are bound, and what the router answers;
* `eval_isPortInUse` : what `is_port_in_use` answers there;
* `BindsFreely` : the bind that follows, of a transfer or of the listener, goes through;
* `reported_free_iff` : a port that is reported free can be bound there, exactly when no bind
  that only the local address meets is overlooked;
* `busy_port_reported_free` : a transfer of the node itself is overlooked.

The probe leaves the table as it is: its socket is closed before the answer is returned.
-/
import StorageNode.ChunkTransfer
import StorageNode.CommandListener
import StorageNode.PortScanner

/-- An address and a port, as they are bound. -/
structure BoundEndpoint where
  address : String
  port : ℤ
  deriving DecidableEq

/-- The address the probe binds. -/
def loopback : String := "127.0.0.1"

/-- The wildcard address, for which the empty address stands too: it is the default of
`config.local_ip`, and `socket.bind` takes it for `INADDR_ANY`. -/
def IsWildcard (address : String) : Prop := address = "0.0.0.0" ∨ address = ""

instance (address : String) : Decidable (IsWildcard address) :=
  inferInstanceAs (Decidable (_ ∨ _))

theorem not_isWildcard_loopback : ¬ IsWildcard loopback := by decide

/-- **Two binds exclude each other**: the ports are equal, and so are the addresses or one of
them is the wildcard. -/
def BoundEndpoint.Conflicts (e f : BoundEndpoint) : Prop :=
  e.port = f.port ∧ (e.address = f.address ∨ IsWildcard e.address ∨ IsWildcard f.address)

instance (e f : BoundEndpoint) : Decidable (e.Conflicts f) := inferInstanceAs (Decidable (_ ∧ _))

/-- What the scanner meets. -/
structure PortTable where
  /-- the endpoints that are bound -/
  bound : List BoundEndpoint
  /-- the ports the router reports open -/
  opened : ℤ → Bool
  /-- what `forward_port` answers -/
  forwarded : ℤ → Bool
  /-- `config.decentorage_port` -/
  decentoragePort : ℤ

namespace PortTable

/-- An endpoint conflicts with one that is bound. -/
def Blocked (t : PortTable) (e : BoundEndpoint) : Prop := ∃ f ∈ t.bound, f.Conflicts e

instance (t : PortTable) (e : BoundEndpoint) : Decidable (t.Blocked e) :=
  inferInstanceAs (Decidable (∃ f ∈ t.bound, _))

/-- The probing bind fails: the port is no port, or it is taken; port 0 stands for any free
one. -/
def bindFails (t : PortTable) (p : ℤ) : Bool :=
  decide (p < 0 ∨ 65535 < p ∨ (p ≠ 0 ∧ t.Blocked ⟨loopback, p⟩))

/-- What `is_port_in_use` answers. -/
def inUse (t : PortTable) (cfg : Config) (p : ℤ) : Bool :=
  t.bindFails p || (cfg.asksRouter && t.opened p)

/-- One operation of the scanner. -/
def exec (o : ScanOp) (t : PortTable) : Option (Except Exn o.Res × PortTable) :=
  match o with
  | .probeBind p => some (if t.bindFails p then .error .zmqError else .ok (), t)
  | .isPortOpen p => some (.ok (t.opened p), t)
  | .forwardPort p => some (.ok (t.forwarded p), t)
  | .decentoragePort => some (.ok t.decentoragePort, t)
  | .setDecentoragePort p => some (.ok (), { t with decentoragePort := p })
  | _ => none

end PortTable

/-! ## What the scanner answers -/

section Scanner

variable (cfg : Config) (p : ℤ) (t : PortTable)

theorem eval_checkZmqBind :
    (PortScanner.checkZmqBind p).eval PortTable.exec t = some (.ok (t.bindFails p), t) := by
  have hprobe : PortTable.exec (.probeBind p) t =
      some (if t.bindFails p then .error .zmqError else .ok (), t) := rfl
  simp only [PortScanner.checkZmqBind, Prog.eval_tryExcept, Prog.bind_eq, Prog.eval_bind,
    Prog.eval_perform, hprobe]
  cases t.bindFails p with
  | true => rfl
  | false => rfl

/-- **`is_port_in_use`** answers and changes nothing. -/
theorem eval_isPortInUse :
    (PortScanner.isPortInUse cfg p).eval PortTable.exec t = some (.ok (t.inUse cfg p), t) := by
  simp only [PortScanner.isPortInUse, Prog.bind_eq, Prog.eval_bind, eval_checkZmqBind,
    PortTable.inUse]
  cases cfg.asksRouter with
  | true =>
      have hrouter : PortTable.exec (.isPortOpen p) t = some (.ok (t.opened p), t) := rfl
      simp only [if_true, Prog.eval_bind, Prog.eval_perform, hrouter, Bool.true_and]
      rfl
  | false =>
      rw [Bool.false_and, Bool.or_false]
      rfl

end Scanner

/-! ## The binds that follow -/

/-- What an operation of a transfer binds. -/
def NodeOp.binds : NodeOp → Option BoundEndpoint
  | .bindSocket address (.int port) => some ⟨address, port⟩
  | _ => none

/-- What an operation of the listener binds. -/
def ListenerOp.binds : ListenerOp → Option BoundEndpoint
  | .bind address port => some ⟨address, port⟩
  | _ => none

/-- **The bind that follows goes through**: `ZmqSessionManager.open` and
`CommandListener.run_forever` bind nothing that is blocked. -/
structure BindsFreely (cfg : Config) (p : ℤ) (t : PortTable) : Prop where
  transfer : (ZmqSessionManager.openSocket cfg.localIp (.int p)).Only fun o =>
    ∀ e, o.binds = some e → ¬ t.Blocked e
  listener : ∀ n, (CommandListener.runForever cfg.localIp p n).Only fun o =>
    ∀ e, o.binds = some e → ¬ t.Blocked e

section Binds

variable {cfg : Config} {p : ℤ} {t : PortTable}

/-- The listener binds once. -/
theorem only_acceptLoop (n : ℕ) :
    (CommandListener.acceptLoop n).Only fun o => ∀ e, o.binds = some e → ¬ t.Blocked e := by
  have hnone : ∀ o : ListenerOp, o.binds = none → ∀ e, o.binds = some e → ¬ t.Blocked e := by
    intro o ho e he
    rw [ho] at he
    cases he
  have hserve : CommandListener.serveConnection.Only fun o =>
      ∀ e, o.binds = some e → ¬ t.Blocked e := by
    refine Prog.only_bind (Prog.only_perform (hnone _ rfl)) fun conn => ?_
    refine Prog.only_bind (Prog.only_perform (hnone _ rfl)) fun data => ?_
    refine Prog.only_ofExcept_bind fun raw _ => ?_
    refine Prog.only_ofExcept_bind fun incoming _ => ?_
    refine Prog.only_ofExcept_bind fun _ _ => ?_
    exact Prog.only_perform (hnone _ rfl)
  induction n with
  | zero => trivial
  | succ n ih => exact Prog.only_bind hserve fun _ => ih

/-- Both bind the local address. -/
theorem bindsFreely_iff : BindsFreely cfg p t ↔ ¬ t.Blocked ⟨cfg.localIp, p⟩ := by
  constructor
  · intro h
    exact (h.transfer.2 (.ok ())).1 _ rfl
  · intro h
    have hbind : ∀ e, some (⟨cfg.localIp, p⟩ : BoundEndpoint) = some e → ¬ t.Blocked e := by
      rintro _ ⟨⟩
      exact h
    have hnone : ∀ e : BoundEndpoint, none = some e → ¬ t.Blocked e := by
      rintro _ ⟨⟩
    refine ⟨?_, fun n => ?_⟩
    · exact Prog.only_bind (Prog.only_perform hnone) fun _ => Prog.only_perform hbind
    · refine Prog.only_bind (Prog.only_perform hbind) fun _ => ?_
      exact Prog.only_bind (Prog.only_perform hnone) fun _ => only_acceptLoop n

/-- **A port reported free can be bound where it will be used.** -/
def SoundReport (cfg : Config) (p : ℤ) (t : PortTable) : Prop :=
  ∀ t', (PortScanner.isPortInUse cfg p).eval PortTable.exec t = some (.ok false, t') →
    BindsFreely cfg p t'

/-- A bind on the port that the local address meets and the probe does not. -/
def PortTable.Overlooked (t : PortTable) (cfg : Config) (p : ℤ) : Prop :=
  ∃ e ∈ t.bound, e.port = p ∧ e.address ≠ loopback ∧ ¬ IsWildcard e.address ∧
    (e.address = cfg.localIp ∨ IsWildcard cfg.localIp)

/-- A bind on the port that the probe meets. -/
def PortTable.Noticed (t : PortTable) (p : ℤ) : Prop :=
  ∃ e ∈ t.bound, e.port = p ∧ (e.address = loopback ∨ IsWildcard e.address)

theorem blocked_loopback_iff : t.Blocked ⟨loopback, p⟩ ↔ t.Noticed p := by
  simp only [PortTable.Blocked, PortTable.Noticed, BoundEndpoint.Conflicts,
    not_isWildcard_loopback, or_false]

/-- Where the probe meets nothing, the local address meets what is overlooked. -/
theorem blocked_local_iff (h : ¬ t.Noticed p) :
    t.Blocked ⟨cfg.localIp, p⟩ ↔ t.Overlooked cfg p := by
  constructor
  · rintro ⟨e, he, hport, haddress⟩
    have hloopback : e.address ≠ loopback := fun h' => h ⟨e, he, hport, Or.inl h'⟩
    have hwildcard : ¬ IsWildcard e.address := fun h' => h ⟨e, he, hport, Or.inr h'⟩
    refine ⟨e, he, hport, hloopback, hwildcard, ?_⟩
    rcases haddress with haddress | haddress | haddress
    · exact Or.inl haddress
    · exact absurd haddress hwildcard
    · exact Or.inr haddress
  · rintro ⟨e, he, hport, -, -, haddress⟩
    exact ⟨e, he, hport, haddress.imp id Or.inr⟩

theorem inUse_eq_false_iff (hp : 1 ≤ p ∧ p ≤ 65535) :
    t.inUse cfg p = false ↔
      ¬ t.Noticed p ∧ ¬ (cfg.asksRouter = true ∧ t.opened p = true) := by
  rw [PortTable.inUse, Bool.or_eq_false_iff, PortTable.bindFails, decide_eq_false_iff_not,
    blocked_loopback_iff]
  refine and_congr ?_ ?_
  · constructor
    · intro h hnoticed
      exact h (Or.inr (Or.inr ⟨by omega, hnoticed⟩))
    · rintro h (hlow | hhigh | ⟨-, hnoticed⟩)
      · omega
      · omega
      · exact h hnoticed
  · rw [← Bool.and_eq_true, Bool.not_eq_true]

end Binds

/-- **What is reported free can be bound** exactly when an overlooked bind on the port comes
with one that the probe meets, or the router reports the port open. -/
theorem reported_free_iff (cfg : Config) (p : ℤ) (t : PortTable) (hp : 1 ≤ p ∧ p ≤ 65535) :
    SoundReport cfg p t ↔
      (t.Overlooked cfg p → t.Noticed p ∨ (cfg.asksRouter = true ∧ t.opened p = true)) := by
  unfold SoundReport
  rw [eval_isPortInUse]
  constructor
  · intro h hoverlooked
    by_contra hfree
    rw [not_or] at hfree
    have hbinds := h t (by rw [(inUse_eq_false_iff hp).mpr hfree])
    exact bindsFreely_iff.mp hbinds ((blocked_local_iff hfree.1).mpr hoverlooked)
  · intro h t' heval
    rw [Option.some.injEq, Prod.mk.injEq, Except.ok.injEq] at heval
    obtain ⟨hfree, rfl⟩ := heval
    have hreport := (inUse_eq_false_iff hp).mp hfree
    refine bindsFreely_iff.mpr fun hblocked => ?_
    have hoverlooked := (blocked_local_iff hreport.1).mp hblocked
    exact (h hoverlooked).elim hreport.1 hreport.2

/-- Nothing is bound on the port. -/
theorem reported_free_unbound :
    SoundReport { localIp := "192.168.1.5" } 50200 ⟨[], fun _ => false, fun _ => true, 50000⟩ ↔
      (PortTable.Overlooked ⟨[], fun _ => false, fun _ => true, 50000⟩
          { localIp := "192.168.1.5" } 50200 →
        PortTable.Noticed ⟨[], fun _ => false, fun _ => true, 50000⟩ 50200 ∨
          (Config.asksRouter { localIp := "192.168.1.5" } = true ∧ false = true)) :=
  reported_free_iff _ _ _ (by decide)

/-- **A transfer holds the port on the local address**: the probe on the loopback address goes
through, and the next transfer cannot bind what it is given. -/
theorem busy_port_reported_free :
    ¬ SoundReport { localIp := "192.168.1.5" } 50200
      ⟨[⟨"192.168.1.5", 50200⟩], fun _ => false, fun _ => true, 50000⟩ := by
  intro h
  have hbinds := h _ (by rw [eval_isPortInUse]; rfl)
  exact bindsFreely_iff.mp hbinds (by decide)
