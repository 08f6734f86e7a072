/-
# POSIX paths, lexically

`posixpath.join` and `posixpath.normpath` on strings.  A normalised path is
kept as the number of its leading slashes and the stack of its segments, the deepest first.

* `leading`, `enter`, `walk`, `normpath` : normalisation, segment by segment;
* `walk_normalised` : walking a relative path is walking its normal form;
* `walk_ups` : what `..` segments do to a stack;
* `normpath_join` : a joined path is walked from where the first one leads;
* `child_join_iff` : when the joined path is a direct child of the first one.
-/
import StorageNode.PyStr

namespace PosixPath

/-- The separator. -/
abbrev slash : CodePoint := .char '/'

abbrev dot : CodePoint := .char '.'

/-- A segment of a path. -/
abbrev Segment := PyStr

/-- The segment `..`. -/
def up : Segment := [dot, dot]

/-- A segment that names something. -/
def IsName (part : Segment) : Prop := part ≠ [] ∧ part ≠ [dot] ∧ part ≠ up

instance (part : Segment) : Decidable (IsName part) :=
  inferInstanceAs (Decidable (_ ∧ _ ∧ _))

/-- `initial_slashes`: exactly two leading slashes are kept, any other number counts as
one. -/
def leading (path : PyStr) : ℕ :=
  match (path.takeWhile (· == slash)).length with
  | 0 => 0
  | 2 => 2
  | _ => 1

/-- One round of the loop of `normpath`. -/
def enter (rooted : Bool) (stack : List Segment) (part : Segment) : List Segment :=
  if part = [] ∨ part = [dot] then stack
  else if part ≠ up then part :: stack
  else
    match stack with
    | [] => if rooted then [] else [up]
    | top :: rest => if top = up then up :: top :: rest else rest

def walk (rooted : Bool) (stack : List Segment) (parts : List Segment) : List Segment :=
  parts.foldl (enter rooted) stack

/-- `normpath`. -/
def normpath (path : PyStr) : ℕ × List Segment :=
  (leading path, walk (leading path != 0) [] (path.splitOn slash))

/-- `join`. -/
def join (base path : PyStr) : PyStr :=
  if path.head? = some slash then path
  else if base = [] ∨ base.getLast? = some slash then base ++ path
  else base ++ slash :: path

/-! ## Stacks -/

section Walk

variable {rooted : Bool} {stack names : List Segment}

theorem enter_name {part : Segment} (h : IsName part) : enter rooted stack part = part :: stack := by
  unfold enter
  rw [if_neg (by rintro (h' | h'); exact h.1 h'; exact h.2.1 h'), if_pos h.2.2]

theorem walk_append (parts parts' : List Segment) :
    walk rooted stack (parts ++ parts') = walk rooted (walk rooted stack parts) parts' :=
  List.foldl_append

theorem walk_names (h : ∀ part ∈ names, IsName part) :
    walk rooted stack names = names.reverse ++ stack := by
  induction names generalizing stack with
  | nil => rfl
  | cons part names ih =>
      rw [walk, List.foldl_cons, enter_name (h part List.mem_cons_self)]
      have hrest : walk rooted (part :: stack) names = names.reverse ++ (part :: stack) :=
        ih fun p hp => h p (List.mem_cons_of_mem _ hp)
      rw [walk] at hrest
      rw [hrest, List.reverse_cons, List.append_assoc]
      rfl

/-- **The stacks that occur**: names above some `..`, and no `..` under a root. -/
def Proper (rooted : Bool) (stack : List Segment) : Prop :=
  ∃ (names : List Segment) (n : ℕ), stack = names ++ List.replicate n up ∧
    (∀ part ∈ names, IsName part) ∧ (rooted = true → n = 0)

theorem Proper.enter (h : Proper rooted stack) (part : Segment) :
    Proper rooted (enter rooted stack part) := by
  obtain ⟨names, n, rfl, hnames, hroot⟩ := h
  unfold PosixPath.enter
  split
  · exact ⟨names, n, rfl, hnames, hroot⟩
  · next hne =>
      split
      · next hup =>
          refine ⟨part :: names, n, rfl, fun p hp => ?_, hroot⟩
          rcases List.mem_cons.mp hp with rfl | hp
          · exact ⟨fun h => hne (Or.inl h), fun h => hne (Or.inr h), hup⟩
          · exact hnames p hp
      · cases names with
        | cons top rest =>
            have htop := (hnames top List.mem_cons_self).2.2
            refine ⟨rest, n, ?_, fun p hp => hnames p (List.mem_cons_of_mem _ hp), hroot⟩
            simp [htop]
        | nil =>
            cases n with
            | zero =>
                cases rooted with
                | true => exact ⟨[], 0, rfl, hnames, fun _ => rfl⟩
                | false => exact ⟨[], 1, rfl, hnames, fun h => absurd h Bool.false_ne_true⟩
            | succ n =>
                refine ⟨[], n + 2, ?_, hnames, fun h => absurd (hroot h) (by omega)⟩
                simp [List.replicate_succ]

theorem Proper.walk (h : Proper rooted stack) (parts : List Segment) :
    Proper rooted (walk rooted stack parts) := by
  induction parts generalizing stack with
  | nil => exact h
  | cons part parts ih => exact ih (h.enter part)

theorem proper_nil : Proper rooted [] :=
  ⟨[], 0, rfl, fun _ hp => absurd hp List.not_mem_nil, fun _ => rfl⟩

/-- **Walking a relative path is walking its normal form.** -/
theorem walk_normalised (parts : List Segment) :
    walk rooted stack parts = walk rooted stack (walk false [] parts).reverse := by
  induction parts using List.reverseRecOn with
  | nil => rfl
  | append_singleton parts part ih =>
      rw [walk_append, walk_append, ih]
      set normal := walk false [] parts with hnormal
      show enter rooted (walk rooted stack normal.reverse) part =
        walk rooted stack (enter false normal part).reverse
      unfold enter
      split
      · rfl
      · split
        · next hne hup =>
            rw [List.reverse_cons, walk_append]
            exact (enter_name ⟨fun h => hne (Or.inl h), fun h => hne (Or.inr h), hup⟩).symm
        · next hne hup =>
            obtain rfl : part = up := not_not.mp hup
            have hproper : Proper false normal := by
              rw [hnormal]
              exact proper_nil.walk parts
            have hstep : ∀ below : List Segment, enter rooted below up =
                match below with
                | [] => if rooted then [] else [up]
                | top :: rest => if top = up then up :: top :: rest else rest := by
              intro below
              simp [enter, up]
            rw [← hstep]
            cases hcases : normal with
            | nil => rfl
            | cons top rest =>
                by_cases htop : top = up
                · simp only [htop, if_true, List.reverse_cons, walk_append]
                  rfl
                · -- a name and the `..` after it cancel each other
                  have hname : IsName top := by
                    obtain ⟨names, n, heq, hnames, -⟩ := hproper
                    rw [hcases] at heq
                    cases names with
                    | cons x names =>
                        obtain ⟨rfl, -⟩ := List.cons.inj heq
                        exact hnames top List.mem_cons_self
                    | nil =>
                        have hmem : top ∈ List.replicate n up := by
                          rw [List.nil_append] at heq
                          rw [← heq]
                          exact List.mem_cons_self
                        exact absurd (List.eq_of_mem_replicate hmem) htop
                  simp only [if_neg htop, List.reverse_cons, walk_append]
                  show enter rooted (enter rooted (walk rooted stack rest.reverse) top) up = _
                  rw [enter_name hname, hstep]
                  simp [htop]

/-- **What `..` does**: it takes names away, and when there are none left it is kept below
no root and forgotten at one. -/
theorem walk_ups (n k : ℕ) (hnames : ∀ part ∈ names, IsName part)
    (hroot : rooted = true → n = 0) :
    walk rooted (names ++ List.replicate n up) (List.replicate k up) =
      names.drop k ++
        List.replicate (if rooted then 0 else n + (k - names.length)) up := by
  induction k generalizing names n with
  | zero =>
      cases rooted with
      | true => simp [walk, hroot rfl]
      | false => simp [walk]
  | succ k ih =>
      rw [List.replicate_succ]
      show walk rooted (enter rooted (names ++ List.replicate n up) up) (List.replicate k up) = _
      cases names with
      | cons top rest =>
          have htop := (hnames top List.mem_cons_self).2.2
          have henter : enter rooted (top :: rest ++ List.replicate n up) up =
              rest ++ List.replicate n up := by
            show (if top = up then up :: top :: _ else rest ++ List.replicate n up) = _
            rw [if_neg htop]
          rw [henter, ih n (fun p hp => hnames p (List.mem_cons_of_mem _ hp)) hroot]
          simp
      | nil =>
          cases rooted with
          | true =>
              obtain rfl := hroot rfl
              have hrest := ih 0 hnames fun _ => rfl
              simp only [if_true, List.replicate_zero, List.append_nil, List.drop_nil] at hrest ⊢
              exact hrest
          | false =>
              have henter : enter false ([] ++ List.replicate n up) up =
                  [] ++ List.replicate (n + 1) up := by
                cases n with
                | zero => rfl
                | succ n => simp [enter, up, List.replicate_succ]
              rw [henter, ih (n + 1) hnames (fun h => absurd h Bool.false_ne_true)]
              simp only [List.drop_nil, List.length_nil, Bool.false_eq_true, if_false]
              congr 2
              omega

end Walk

/-- Names above `..` can be told apart from them. -/
theorem append_ups_inj {a b : List Segment} {m n : ℕ} (ha : up ∉ a) (hb : up ∉ b)
    (h : a ++ List.replicate m up = b ++ List.replicate n up) : a = b ∧ m = n := by
  have htake : ∀ (c : List Segment) (l : ℕ), up ∉ c →
      (c ++ List.replicate l up).takeWhile (· ≠ up) = c := by
    intro c l hc
    rw [List.takeWhile_append_of_pos]
    · cases l <;> simp [List.replicate_succ]
    · intro x hx
      rw [decide_eq_true_eq]
      rintro rfl
      exact hc hx
  have hab : a = b := by rw [← htake a m ha, h, htake b n hb]
  subst hab
  have hlen := congrArg List.length h
  simp only [List.length_append, List.length_replicate] at hlen
  exact ⟨rfl, by omega⟩

theorem not_mem_of_names (names : List Segment) (h : ∀ part ∈ names, IsName part) : up ∉ names :=
  fun hup => (h up hup).2.2 rfl

/-! ## Joined paths -/

theorem leading_append {base : PyStr} (path : PyStr) (hbase : base ≠ [])
    (h : base.getLast? ≠ some slash ∨ path.head? ≠ some slash) : leading (base ++ path) = leading base := by
  have htake : (base ++ path).takeWhile (· == slash) = base.takeWhile (· == slash) := by
    by_cases hall : ∀ c ∈ base, (c == slash) = true
    · rw [List.takeWhile_append_of_pos hall, List.takeWhile_eq_self_iff.mpr hall]
      rcases h with h | h
      · -- the last character of `base` is a slash
        have hlast := List.getLast?_eq_some_getLast hbase
        have hslash := hall _ (List.getLast_mem hbase)
        rw [beq_iff_eq] at hslash
        rw [hslash] at hlast
        exact absurd hlast h
      · cases path with
        | nil => simp
        | cons c path =>
            have hc : c ≠ slash := fun hc => h (by rw [hc]; rfl)
            simp [hc]
    · rw [List.takeWhile_append]
      have hlen : (base.takeWhile (· == slash)).length ≠ base.length := by
        intro hlen
        have heq := (List.takeWhile_prefix (· == slash)).eq_of_length hlen
        exact hall (List.takeWhile_eq_self_iff.mp heq)
      rw [if_neg hlen]
  unfold leading
  rw [htake]

theorem leading_eq_zero {path : PyStr} : leading path = 0 ↔ path.head? ≠ some slash := by
  cases path with
  | nil => simp [leading]
  | cons c r =>
      by_cases hc : c = slash
      · subst hc
        have hpos : leading (slash :: r) ≠ 0 := by
          unfold leading
          simp only [List.takeWhile_cons, beq_self_eq_true, if_true, List.length_cons]
          split
          · next h => exact absurd h (by omega)
          · decide
          · decide
        simp [hpos]
      · have hzero : leading (c :: r) = 0 := by
          simp [leading, hc]
        simp [hzero, hc]

/-- An absolute path replaces the first one. -/
theorem join_absolute {base path : PyStr} (h : path.head? = some slash) : join base path = path := by
  rw [join, if_pos h]

/-- **A relative path is walked from where the first one leads.** -/
theorem normpath_join {base path : PyStr} (h : path.head? ≠ some slash) :
    normpath (join base path) =
      ((normpath base).1,
        walk (leading base != 0) (normpath base).2 (walk false [] (path.splitOn slash)).reverse) := by
  rw [← walk_normalised]
  unfold join
  rw [if_neg h]
  by_cases hnil : base = []
  · subst hnil
    have hzero : leading path = 0 := leading_eq_zero.mpr h
    simp only [true_or, if_true, List.nil_append, normpath, hzero]
    rfl
  by_cases hlast : base.getLast? = some slash
  · rw [if_pos (Or.inr hlast)]
    obtain ⟨front, rfl⟩ : ∃ front, base = front ++ [slash] :=
      List.getLast?_eq_some_iff.mp hlast
    have hleading := leading_append path hnil (Or.inr h)
    unfold normpath
    rw [hleading]
    refine Prod.ext rfl ?_
    show walk _ [] ((front ++ [slash] ++ path).splitOn slash) = walk _ (walk _ [] _) _
    rw [List.append_assoc, List.singleton_append, List.splitOn_append_cons_self,
      List.splitOn_append_cons_self, walk_append, walk_append]
    rfl
  · rw [if_neg (by rintro (h' | h'); exact hnil h'; exact hlast h')]
    have hleading := leading_append (slash :: path) hnil (Or.inl hlast)
    unfold normpath
    rw [hleading]
    refine Prod.ext rfl ?_
    show walk _ [] ((base ++ slash :: path).splitOn slash) = walk _ (walk _ [] _) _
    rw [List.splitOn_append_cons_self, walk_append]

/-! ## Direct children -/

/-- `path` is a direct child of `base`, lexically. -/
def Child (base path : PyStr) : Prop :=
  ∃ name, IsName name ∧ normpath path = ((normpath base).1, name :: (normpath base).2)

/-- **A relative path that leads to a child**: `k` times `..`, then the last `k` segments of
`base`, then one name. -/
def BackToChild (base path : PyStr) : Prop :=
  ∃ (k : ℕ) (name : Segment), IsName name ∧ up ∉ (normpath base).2.take k ∧
    (leading base ≠ 0 ∨ k ≤ (normpath base).2.length) ∧
    (normpath path).2 = name :: (normpath base).2.take k ++ List.replicate k up

/-- The deepest segments of a stack whose `..` lie below them. -/
theorem take_append_ups {names : List Segment} {n k : ℕ} (h : n = 0 ∨ k ≤ names.length) :
    (names ++ List.replicate n up).take k = names.take k := by
  rcases h with rfl | h
  · rw [List.replicate_zero, List.append_nil]
  · exact List.take_append_of_le_length h

theorem le_of_up_not_mem_take {names : List Segment} {n k : ℕ}
    (hup : up ∉ (names ++ List.replicate n up).take k)
    (hk : k ≤ (names ++ List.replicate n up).length) : k ≤ names.length := by
  by_contra hgt
  rw [List.length_append, List.length_replicate] at hk
  refine hup ?_
  rw [List.take_append, List.mem_append]
  right
  rw [List.take_replicate, List.mem_replicate]
  exact ⟨by omega, rfl⟩

/-- **When the joined path is a direct child.** -/
theorem child_join_iff {base path : PyStr} (h : path.head? ≠ some slash) :
    Child base (join base path) ↔ BackToChild base path := by
  have hzero : leading path = 0 := leading_eq_zero.mpr h
  obtain ⟨names, n, hbase, hnames, hroot⟩ : Proper (leading base != 0) (normpath base).2 :=
    proper_nil.walk _
  obtain ⟨own, k, hpath, hown, -⟩ : Proper false (walk false [] (path.splitOn slash)) :=
    proper_nil.walk _
  have hrel : (normpath path).2 = own ++ List.replicate k up := by
    rw [← hpath]
    unfold normpath
    rw [hzero]
    rfl
  set m := if (leading base != 0) = true then 0 else n + (k - names.length) with hm
  -- the joined path: the names of `path` on top of what its `..` leave of `base`
  have hjoin : normpath (join base path) =
      ((normpath base).1, own ++ names.drop k ++ List.replicate m up) := by
    rw [normpath_join h, hpath, hbase, List.reverse_append, List.reverse_replicate, walk_append,
      walk_ups n k hnames hroot, walk_names (fun p hp => hown p (List.mem_reverse.mp hp)),
      List.reverse_reverse, List.append_assoc]
  have hdrop : ∀ part ∈ names.drop k, IsName part := fun p hp => hnames p (List.mem_of_mem_drop hp)
  have hfree : up ∉ own ++ names.drop k :=
    not_mem_of_names _ fun p hp => (List.mem_append.mp hp).elim (hown p) (hdrop p)
  constructor
  · rintro ⟨name, hname, heq⟩
    rw [hjoin, hbase, Prod.mk.injEq] at heq
    obtain ⟨heq, hmn⟩ := append_ups_inj hfree
      (not_mem_of_names (name :: names) fun p hp =>
        (List.mem_cons.mp hp).elim (fun h => h ▸ hname) (hnames p)) heq.2
    obtain ⟨rest, rfl, hrest⟩ : ∃ rest, own = name :: rest ∧ rest ++ names.drop k = names := by
      cases own with
      | nil =>
          have hlen := congrArg List.length heq
          simp only [List.nil_append, List.length_drop, List.length_cons] at hlen
          omega
      | cons x rest =>
          obtain ⟨rfl, hrest⟩ := List.cons.inj heq
          exact ⟨rest, rfl, hrest⟩
    have htake : rest = names.take k := by
      have happ := hrest.trans (List.take_append_drop k names).symm
      exact List.append_cancel_right happ
    have hk : leading base ≠ 0 ∨ k ≤ names.length := by
      by_cases hl : leading base = 0
      · right
        rw [hm, if_neg (by simp [hl])] at hmn
        omega
      · exact Or.inl hl
    have hbasetake : (names ++ List.replicate n up).take k = names.take k :=
      take_append_ups (hk.imp_left fun hl => hroot (by simp [hl]))
    refine ⟨k, name, hname, ?_, ?_, ?_⟩
    · rw [hbase, hbasetake]
      exact not_mem_of_names _ fun p hp => hnames p (List.mem_of_mem_take hp)
    · rw [hbase, List.length_append]
      exact hk.imp_right fun h => by omega
    · rw [hrel, hbase, hbasetake, htake]
  · rintro ⟨k', name, hname, hup, hk, heq⟩
    rw [hbase] at hup hk heq
    have hk' : leading base ≠ 0 ∨ k' ≤ names.length :=
      hk.imp_right fun hle => le_of_up_not_mem_take hup hle
    rw [take_append_ups (hk'.imp_left fun hl => hroot (by simp [hl])), hrel] at heq
    obtain ⟨hownEq, rfl⟩ := append_ups_inj (not_mem_of_names _ hown)
      (not_mem_of_names (name :: names.take k') fun p hp =>
        (List.mem_cons.mp hp).elim (fun h => h ▸ hname)
          fun hp => hnames p (List.mem_of_mem_take hp)) heq
    refine ⟨name, hname, ?_⟩
    rw [hjoin, hbase, hownEq]
    refine Prod.ext rfl ?_
    show name :: names.take k ++ names.drop k ++ List.replicate m up = _
    rw [List.cons_append, List.take_append_drop]
    have hmn : m = n := by
      rw [hm]
      by_cases hl : leading base = 0
      · rw [if_neg (by simp [hl])]
        have := hk'.resolve_left (not_not.mpr hl)
        omega
      · rw [if_pos (by simp [hl])]
        exact (hroot (by simp [hl])).symm
    rw [hmn]
    rfl

end PosixPath
