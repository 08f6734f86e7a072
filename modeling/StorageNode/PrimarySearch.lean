/-
# The search for the primary port (`node_utilities.py`)

`find_available_port(is_primary=True)` counts upward from `starting_port` until a port is
not in use; nothing bounds the count, and port 0 passes the probe.

* `StopsAt` : where the count ends, with `eval_scanLoop` and `stopsAt_of_eval`;
* `IsFree`, `SearchMeets` : the free ports, and what the search is to do;
* `primary_search_iff` : when it does;
* `search_never_ends`, `search_misses` : it may take port 0, or go on for ever.
-/
import StorageNode.PortProbe

namespace PrimarySearch

open PortScanner

/-! ## Where the count ends -/

/-- Every port from `start` on is in use, up to `p`, which is not. -/
def StopsAt (t : PortTable) (cfg : Config) (start p : ℤ) : Prop :=
  start ≤ p ∧ t.inUse cfg p = false ∧ ∀ c, start ≤ c → c < p → t.inUse cfg c = true

section Count

variable {cfg : Config} {start p : ℤ} {t : PortTable}

theorem eval_scanLoop_succ (fuel : ℕ) :
    (scanLoop cfg true (fuel + 1) start).eval PortTable.exec t =
      if t.inUse cfg start then (scanLoop cfg true fuel (start + 1)).eval PortTable.exec t
      else some (.ok start, { t with decentoragePort := start }) := by
  simp only [scanLoop, if_true, Prog.bind_eq, Prog.eval_bind, eval_isPortInUse]
  cases t.inUse cfg start with
  | true => rfl
  | false =>
      have hset : PortTable.exec (.setDecentoragePort start) t =
          some (.ok (), { t with decentoragePort := start }) := rfl
      simp only [Bool.false_eq_true, if_false, Prog.eval_bind, Prog.eval_perform, hset]
      rfl

/-- The count gets to where it ends. -/
theorem eval_scanLoop (n : ℕ) (h : StopsAt t cfg start (start + n)) :
    (scanLoop cfg true (n + 1) start).eval PortTable.exec t =
      some (.ok (start + n), { t with decentoragePort := start + n }) := by
  induction n generalizing start with
  | zero =>
      obtain ⟨-, hfree, -⟩ := h
      rw [Nat.cast_zero, add_zero] at hfree ⊢
      rw [eval_scanLoop_succ, hfree]
      rfl
  | succ n ih =>
      have hused : t.inUse cfg start = true := h.2.2 start le_rfl (by push_cast; omega)
      have hshift : start + 1 + (n : ℤ) = start + ((n + 1 : ℕ) : ℤ) := by push_cast; ring
      rw [eval_scanLoop_succ, hused, if_pos rfl, ← hshift]
      refine ih ⟨by omega, ?_, fun c hlow hhigh => ?_⟩
      · rw [hshift]
        exact h.2.1
      · exact h.2.2 c (by omega) (by omega)

/-- It ends nowhere else. -/
theorem stopsAt_of_scanLoop {fuel : ℕ} {r : Except Exn ℤ} {t' : PortTable}
    (h : (scanLoop cfg true fuel start).eval PortTable.exec t = some (r, t')) :
    ∃ q, StopsAt t cfg start q ∧ r = .ok q ∧ t' = { t with decentoragePort := q } := by
  induction fuel generalizing start with
  | zero => cases h
  | succ fuel ih =>
      rw [eval_scanLoop_succ] at h
      cases hused : t.inUse cfg start with
      | true =>
          rw [hused, if_pos rfl] at h
          obtain ⟨q, ⟨hle, hfree, hbelow⟩, hr, ht⟩ := ih h
          refine ⟨q, ⟨by omega, hfree, fun c hlow hhigh => ?_⟩, hr, ht⟩
          rcases eq_or_lt_of_le hlow with rfl | hlow
          · exact hused
          · exact hbelow c (by omega) hhigh
      | false =>
          rw [hused] at h
          cases h
          exact ⟨start, ⟨le_rfl, hused, fun c hlow hhigh => by omega⟩, rfl, rfl⟩

/-- The mapping that follows changes nothing here. -/
theorem eval_findAvailablePort (fuel : ℕ) :
    (findAvailablePort cfg start true fuel).eval PortTable.exec t =
      (scanLoop cfg true fuel start).eval PortTable.exec t := by
  simp only [findAvailablePort, Prog.bind_eq, Prog.eval_bind]
  cases hscan : (scanLoop cfg true fuel start).eval PortTable.exec t with
  | none => rfl
  | some rt =>
      obtain ⟨r, t'⟩ := rt
      obtain ⟨q, -, rfl, -⟩ := stopsAt_of_scanLoop hscan
      cases cfg.asksRouter with
      | true => rfl
      | false => rfl

/-- **The search** ends at `p` exactly when the count does. -/
theorem finds_iff : (∃ fuel t', (findAvailablePort cfg start true fuel).eval PortTable.exec t =
    some (.ok p, t') ∧ t'.decentoragePort = p) ↔ StopsAt t cfg start p := by
  constructor
  · rintro ⟨fuel, t', heval, -⟩
    rw [eval_findAvailablePort] at heval
    obtain ⟨q, hstop, hr, -⟩ := stopsAt_of_scanLoop heval
    rw [Except.ok.injEq] at hr
    rw [hr]
    exact hstop
  · intro hstop
    obtain ⟨n, rfl⟩ := Int.le.dest hstop.1
    exact ⟨n + 1, _, (eval_findAvailablePort _).trans (eval_scanLoop n hstop), rfl⟩

/-- It raises nothing. -/
theorem not_raises {e : Exn} {fuel : ℕ} {t' : PortTable} :
    (findAvailablePort cfg start true fuel).eval PortTable.exec t ≠ some (.error e, t') := by
  intro heval
  rw [eval_findAvailablePort] at heval
  obtain ⟨q, -, hr, -⟩ := stopsAt_of_scanLoop heval
  cases hr

end Count

/-! ## The property -/

/-- A free port of the search: a port number from `max(1, starting_port)` on that is not in
use. -/
def IsFree (t : PortTable) (cfg : Config) (start p : ℤ) : Prop :=
  max 1 start ≤ p ∧ p ≤ 65535 ∧ t.inUse cfg p = false

/-- **What the search is to do**: it returns the least free port and stores it, and where there
is none it raises and leaves the stored port alone. -/
def SearchMeets (cfg : Config) (start : ℤ) (t : PortTable) : Prop :=
  (∀ p, IsLeast {p | IsFree t cfg start p} p →
    ∃ fuel t', (findAvailablePort cfg start true fuel).eval PortTable.exec t =
      some (.ok p, t') ∧ t'.decentoragePort = p) ∧
  ((∀ p, ¬ IsFree t cfg start p) →
    ∃ fuel e t', (findAvailablePort cfg start true fuel).eval PortTable.exec t =
      some (.error e, t') ∧ t'.decentoragePort = t.decentoragePort)

section Search

variable {cfg : Config} {start p : ℤ} {t : PortTable}

/-- Among the free ports there is a least. -/
theorem exists_least (h : IsFree t cfg start p) : ∃ q, IsLeast {q | IsFree t cfg start q} q := by
  obtain ⟨q, hq, hleast⟩ := Int.exists_least_of_bdd (P := IsFree t cfg start)
    ⟨1, fun z hz => (le_max_left 1 start).trans hz.1⟩ ⟨p, h⟩
  exact ⟨q, hq, fun z hz => hleast z hz⟩

/-- No negative port passes the probe. -/
theorem inUse_of_neg {c : ℤ} (h : c < 0) : t.inUse cfg c = true := by
  have hbind : t.bindFails c = true := decide_eq_true (Or.inl h)
  rw [PortTable.inUse, hbind, Bool.true_or]

theorem inUse_of_large {c : ℤ} (h : 65535 < c) : t.inUse cfg c = true := by
  have hbind : t.bindFails c = true := decide_eq_true (Or.inr (Or.inl h))
  rw [PortTable.inUse, hbind, Bool.true_or]

/-- **The count ends at the least free port** unless it passes port 0 and that is accepted. -/
theorem stopsAt_least_iff (hleast : IsLeast {q | IsFree t cfg start q} p) :
    StopsAt t cfg start p ↔ (1 ≤ start ∨ t.inUse cfg 0 = true) := by
  obtain ⟨⟨hlow, hhigh, hfree⟩, hmin⟩ := hleast
  constructor
  · rintro ⟨-, -, hbelow⟩
    rcases le_or_gt 1 start with hstart | hstart
    · exact Or.inl hstart
    · exact Or.inr (hbelow 0 (by omega) (by omega))
  · intro hzero
    refine ⟨(le_max_right 1 start).trans hlow, hfree, fun c hc hcp => ?_⟩
    rcases lt_trichotomy c 0 with hneg | rfl | hpos
    · exact inUse_of_neg hneg
    · exact hzero.resolve_left (by omega)
    · by_contra hused
      rw [Bool.not_eq_true] at hused
      have := hmin ⟨max_le hpos hc, by omega, hused⟩
      omega

end Search

/-- **The search terminates with a usable port** exactly when some port from
`max(1, starting_port)` to 65535 is free, and the count either starts above port 0 or finds it
in use. -/
theorem primary_search_iff (cfg : Config) (start : ℤ) (t : PortTable) :
    SearchMeets cfg start t ↔
      (∃ p, IsFree t cfg start p) ∧ (1 ≤ start ∨ t.inUse cfg 0 = true) := by
  constructor
  · rintro ⟨hfinds, hnone⟩
    have hfree : ∃ p, IsFree t cfg start p := by
      by_contra h
      rw [not_exists] at h
      obtain ⟨fuel, e, t', heval, -⟩ := hnone h
      exact not_raises heval
    obtain ⟨p, hp⟩ := hfree
    obtain ⟨q, hleast⟩ := exists_least hp
    exact ⟨⟨p, hp⟩, (stopsAt_least_iff hleast).mp (finds_iff.mp (hfinds q hleast))⟩
  · rintro ⟨⟨p, hp⟩, hzero⟩
    refine ⟨fun q hleast => finds_iff.mpr ((stopsAt_least_iff hleast).mpr hzero), fun h => ?_⟩
    exact absurd hp (h p)

/-- Where nothing from the starting port on is free, the count goes on for ever. -/
theorem search_never_ends {cfg : Config} {start : ℤ} {t : PortTable}
    (h : ∀ p, start ≤ p → t.inUse cfg p = true) (fuel : ℕ) :
    (findAvailablePort cfg start true fuel).eval PortTable.exec t = none := by
  rw [eval_findAvailablePort]
  cases heval : (scanLoop cfg true fuel start).eval PortTable.exec t with
  | none => rfl
  | some rt =>
      obtain ⟨r, t'⟩ := rt
      obtain ⟨q, ⟨hle, hfree, -⟩, -, -⟩ := stopsAt_of_scanLoop heval
      rw [h q hle] at hfree
      cases hfree

/-- A machine on which nothing is bound. -/
def idleTable : PortTable := ⟨[], fun _ => false, fun _ => true, 50000⟩

/-- **The search does not terminate with a usable port** from port 0, which it takes, nor from
65536 on, where every bind fails and it never ends. -/
theorem search_misses :
    ¬ SearchMeets {} 0 idleTable ∧ ¬ SearchMeets {} 65536 idleTable ∧
      ∀ fuel, (findAvailablePort {} 65536 true fuel).eval PortTable.exec idleTable = none := by
  refine ⟨?_, ?_, search_never_ends fun p hp => inUse_of_large (by omega)⟩
  · rintro ⟨hfinds, -⟩
    have hleast : IsLeast {q | IsFree idleTable {} 0 q} 1 :=
      ⟨⟨by decide, by decide, by decide⟩, fun q hq => (le_max_left 1 0).trans hq.1⟩
    have hzero := (stopsAt_least_iff hleast).mp (finds_iff.mp (hfinds 1 hleast))
    exact absurd hzero (by decide)
  · rintro ⟨-, hnone⟩
    obtain ⟨fuel, e, t', heval, -⟩ := hnone (by
      rintro p ⟨hlow, hhigh, -⟩
      have := le_max_right (1 : ℤ) 65536
      omega)
    exact not_raises heval

end PrimarySearch
