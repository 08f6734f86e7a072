/-
# URI references (RFC 3986)

Splitting a reference into its five components, putting it together again, and resolving it
against a base, on lists of characters.

* `UriReference`, `parse`, `compose` : the components (appendix B, section 5.3);
* `compose_parse`, `parse_compose` : the two are inverse to each other;
* `parse_hierarchical`, `exists_hierarchical` : the texts with a scheme and an authority;
* `removeDotSegments`, `resolve` : reference resolution (section 5.2);
* `removeDotSegments_of_plain`, `plain_removeDotSegments`, `count_removeDotSegments` : a path
  without dot segments is left alone, the result has none, and it has no more segments;
* `Address`, `address` : what a reference names, up to the case of the scheme and the host and
  with the default port of the scheme (sections 3.2 and 6.2).
-/
import Mathlib

/-- The components of a reference; the path is always there. -/
structure UriReference where
  scheme : Option (List Char)
  authority : Option (List Char)
  path : List Char
  query : Option (List Char)
  fragment : Option (List Char)
  deriving DecidableEq

namespace UriReference

/-- The characters that end a scheme. -/
def endsScheme (c : Char) : Bool := c == ':' || c == '/' || c == '?' || c == '#'

/-- The characters that end an authority. -/
def endsAuthority (c : Char) : Bool := c == '/' || c == '?' || c == '#'

/-- The characters that end a path. -/
def endsPath (c : Char) : Bool := c == '?' || c == '#'

/-- `(([^:/?#]+):)?` -/
def splitScheme (s : List Char) : Option (List Char) × List Char :=
  match s.dropWhile (!endsScheme ·) with
  | ':' :: rest =>
      if s.takeWhile (!endsScheme ·) = [] then (none, s)
      else (some (s.takeWhile (!endsScheme ·)), rest)
  | _ => (none, s)

/-- `(//([^/?#]*))?` -/
def splitAuthority (s : List Char) : Option (List Char) × List Char :=
  match s with
  | '/' :: '/' :: rest =>
      (some (rest.takeWhile (!endsAuthority ·)), rest.dropWhile (!endsAuthority ·))
  | _ => (none, s)

/-- `(\?([^#]*))?` -/
def splitQuery (s : List Char) : Option (List Char) × List Char :=
  match s with
  | '?' :: rest => (some (rest.takeWhile (· != '#')), rest.dropWhile (· != '#'))
  | _ => (none, s)

/-- `(#(.*))?` -/
def splitFragment (s : List Char) : Option (List Char) :=
  match s with
  | '#' :: rest => some rest
  | _ => none

/-- The components of a text. -/
def parse (s : List Char) : UriReference :=
  let afterScheme := (splitScheme s).2
  let afterAuthority := (splitAuthority afterScheme).2
  let afterPath := afterAuthority.dropWhile (!endsPath ·)
  { scheme := (splitScheme s).1
    authority := (splitAuthority afterScheme).1
    path := afterAuthority.takeWhile (!endsPath ·)
    query := (splitQuery afterPath).1
    fragment := splitFragment (splitQuery afterPath).2 }

def schemeText : Option (List Char) → List Char
  | none => []
  | some s => s ++ [':']

def authorityText : Option (List Char) → List Char
  | none => []
  | some s => '/' :: '/' :: s

def queryText : Option (List Char) → List Char
  | none => []
  | some s => '?' :: s

def fragmentText : Option (List Char) → List Char
  | none => []
  | some s => '#' :: s

/-- The text of a reference. -/
def compose (u : UriReference) : List Char :=
  schemeText u.scheme ++ authorityText u.authority ++ u.path ++ queryText u.query ++
    fragmentText u.fragment

/-! ## Splitting and composing -/

section Split

variable {p : Char → Bool} {a b : List Char}

/-- A stretch is cut off where it ends. -/
theorem takeWhile_append_stop (ha : ∀ c ∈ a, p c = false) (hb : ∀ c, b.head? = some c → p c = true) :
    (a ++ b).takeWhile (!p ·) = a := by
  induction a with
  | nil =>
      cases b with
      | nil => rfl
      | cons c b => simp [hb c rfl]
  | cons c a ih =>
      rw [List.cons_append, List.takeWhile_cons_of_pos (by rw [ha c List.mem_cons_self]; rfl),
        ih fun d hd => ha d (List.mem_cons_of_mem c hd)]

theorem dropWhile_append_stop (ha : ∀ c ∈ a, p c = false) (hb : ∀ c, b.head? = some c → p c = true) :
    (a ++ b).dropWhile (!p ·) = b := by
  have h := List.takeWhile_append_dropWhile (p := (!p ·)) (l := a ++ b)
  rw [takeWhile_append_stop ha hb] at h
  exact List.append_cancel_left h

/-- What stops a stretch is a stop, if anything. -/
theorem head_dropWhile {s : List Char} (c : Char) (h : (s.dropWhile (!p ·)).head? = some c) :
    p c = true := by
  have hne : s.dropWhile (!p ·) ≠ [] := by
    intro hnil
    rw [hnil] at h
    cases h
  have hnot := List.head_dropWhile_not (!p ·) hne
  rw [List.head?_eq_some_head hne, Option.some.injEq] at h
  rw [h] at hnot
  simpa using hnot

theorem mem_takeWhile_not {s : List Char} {c : Char} (h : c ∈ s.takeWhile (!p ·)) : p c = false := by
  have := List.mem_takeWhile_imp h
  simpa using this

end Split

theorem splitScheme_text (s : List Char) :
    schemeText (splitScheme s).1 ++ (splitScheme s).2 = s := by
  unfold splitScheme
  split
  · next rest h =>
      split
      · rfl
      · rw [schemeText, List.append_assoc, List.singleton_append, ← h,
          List.takeWhile_append_dropWhile]
  · rfl

theorem splitAuthority_text (s : List Char) :
    authorityText (splitAuthority s).1 ++ (splitAuthority s).2 = s := by
  unfold splitAuthority
  split
  · rw [authorityText, List.cons_append, List.cons_append, List.takeWhile_append_dropWhile]
  · rfl

theorem splitQuery_text (s : List Char) : queryText (splitQuery s).1 ++ (splitQuery s).2 = s := by
  unfold splitQuery
  split
  · rw [queryText, List.cons_append, List.takeWhile_append_dropWhile]
  · rfl

/-- After the query there is a fragment or nothing. -/
theorem fragment_text {s : List Char} (h : ∀ c, s.head? = some c → endsPath c = true) :
    fragmentText (splitFragment (splitQuery s).2) = (splitQuery s).2 := by
  have hhead : ∀ c, (splitQuery s).2.head? = some c → c = '#' := by
    intro c hc
    unfold splitQuery at hc
    split at hc
    · next rest =>
        have := head_dropWhile (p := (· == '#')) (s := rest) c hc
        simpa using this
    · next hq =>
        have hend := h c hc
        cases s with
        | nil => cases hc
        | cons d s =>
            rw [List.head?_cons, Option.some.injEq] at hc
            subst hc
            unfold endsPath at hend
            rw [Bool.or_eq_true, beq_iff_eq, beq_iff_eq] at hend
            exact hend.resolve_left fun hd => hq s (by rw [hd])
  cases hs : (splitQuery s).2 with
  | nil => rfl
  | cons c rest =>
      have := hhead c (by rw [hs]; rfl)
      subst this
      rfl

/-- **The components of a text make up the text.** -/
theorem compose_parse (s : List Char) : compose (parse s) = s := by
  unfold compose parse
  simp only
  rw [List.append_assoc, List.append_assoc, List.append_assoc,
    fragment_text fun c hc => head_dropWhile c hc, splitQuery_text,
    List.takeWhile_append_dropWhile, splitAuthority_text, splitScheme_text]

/-- What is read out of what follows an authority. -/
def parseRest (scheme authority : Option (List Char)) (rest : List Char) : UriReference where
  scheme := scheme
  authority := authority
  path := rest.takeWhile (!endsPath ·)
  query := (splitQuery (rest.dropWhile (!endsPath ·))).1
  fragment := splitFragment (splitQuery (rest.dropWhile (!endsPath ·))).2

/-- Where there is neither a query nor a fragment, the path is all. -/
theorem path_eq_rest {scheme authority : Option (List Char)} {rest : List Char}
    (hquery : (parseRest scheme authority rest).query = none)
    (hfragment : (parseRest scheme authority rest).fragment = none) :
    (parseRest scheme authority rest).path = rest := by
  have htext : fragmentText (splitFragment (splitQuery (rest.dropWhile (!endsPath ·))).2) =
      (splitQuery (rest.dropWhile (!endsPath ·))).2 :=
    fragment_text fun c hc => head_dropWhile c hc
  have hrest := splitQuery_text (rest.dropWhile (!endsPath ·))
  change (splitQuery (rest.dropWhile (!endsPath ·))).1 = none at hquery
  change splitFragment (splitQuery (rest.dropWhile (!endsPath ·))).2 = none at hfragment
  rw [hfragment] at htext
  rw [hquery, ← htext] at hrest
  have hall := List.takeWhile_append_dropWhile (p := (!endsPath ·)) (l := rest)
  rw [← hrest] at hall
  exact (List.append_nil _).symm.trans hall

/-- **A text with a scheme and an authority**, part by part. -/
theorem parse_hierarchical {scheme authority rest : List Char} (hne : scheme ≠ [])
    (hscheme : ∀ c ∈ scheme, endsScheme c = false)
    (hauthority : ∀ c ∈ authority, endsAuthority c = false)
    (hrest : ∀ c, rest.head? = some c → endsAuthority c = true) :
    parse (scheme ++ ':' :: '/' :: '/' :: (authority ++ rest)) =
      parseRest (some scheme) (some authority) rest := by
  have hsplit : splitScheme (scheme ++ ':' :: '/' :: '/' :: (authority ++ rest)) =
      (some scheme, '/' :: '/' :: (authority ++ rest)) := by
    rw [splitScheme, dropWhile_append_stop hscheme (by rintro c ⟨⟩; rfl),
      takeWhile_append_stop hscheme (by rintro c ⟨⟩; rfl)]
    simp only [if_neg hne]
  simp only [parse, hsplit, splitAuthority, takeWhile_append_stop hauthority hrest,
    dropWhile_append_stop hauthority hrest]
  rfl

/-! The delimiters are not in the parts. -/

section Parts

variable {s scheme authority : List Char} {c : Char}

theorem scheme_ne_nil (h : (parse s).scheme = some scheme) : scheme ≠ [] := by
  change (splitScheme s).1 = some scheme at h
  unfold splitScheme at h
  split at h
  · split at h
    · cases h
    · next hne =>
        obtain rfl := Option.some.inj h
        exact hne
  · cases h

theorem endsScheme_of_mem (h : (parse s).scheme = some scheme) (hc : c ∈ scheme) :
    endsScheme c = false := by
  change (splitScheme s).1 = some scheme at h
  unfold splitScheme at h
  split at h
  · split at h
    · cases h
    · obtain rfl := Option.some.inj h
      exact mem_takeWhile_not hc
  · cases h

theorem endsAuthority_of_mem (h : (parse s).authority = some authority) (hc : c ∈ authority) :
    endsAuthority c = false := by
  change (splitAuthority (splitScheme s).2).1 = some authority at h
  unfold splitAuthority at h
  split at h
  · obtain rfl := Option.some.inj h
    exact mem_takeWhile_not hc
  · cases h

theorem endsPath_of_mem (hc : c ∈ (parse s).path) : endsPath c = false := mem_takeWhile_not hc

/-- What follows an authority begins with a delimiter. -/
theorem head_after_authority (h : (parse s).authority = some authority)
    (hc : (splitAuthority (splitScheme s).2).2.head? = some c) : endsAuthority c = true := by
  change (splitAuthority (splitScheme s).2).1 = some authority at h
  revert hc
  unfold splitAuthority at h ⊢
  split at h
  · exact head_dropWhile c
  · cases h

/-- So a path after an authority begins with a slash. -/
theorem path_rooted (h : (parse s).authority = some authority) :
    (parse s).path = [] ∨ (parse s).path.head? = some '/' := by
  cases hpath : (parse s).path with
  | nil => exact .inl rfl
  | cons c path =>
      refine .inr ?_
      have hmem : endsPath c = false := by
        refine endsPath_of_mem (s := s) ?_
        rw [hpath]
        exact List.mem_cons_self
      change (splitAuthority (splitScheme s).2).2.takeWhile (!endsPath ·) = c :: path at hpath
      have hend := head_after_authority h (c := c) (by
        have := List.takeWhile_append_dropWhile (p := (!endsPath ·))
          (l := (splitAuthority (splitScheme s).2).2)
        rw [hpath] at this
        rw [← this]
        rfl)
      unfold endsAuthority at hend
      unfold endsPath at hmem
      rw [Bool.or_assoc, hmem, Bool.or_false, beq_iff_eq] at hend
      rw [hend]
      rfl

/-- Two slashes in front begin an authority. -/
theorem take_two_ne (hscheme : (parse s).scheme = none) (hauthority : (parse s).authority = none) :
    s.take 2 ≠ ['/', '/'] := by
  change (splitScheme s).1 = none at hscheme
  change (splitAuthority (splitScheme s).2).1 = none at hauthority
  have htext := splitScheme_text s
  rw [hscheme, schemeText, List.nil_append] at htext
  rw [htext] at hauthority
  unfold splitAuthority at hauthority
  split at hauthority
  · cases hauthority
  · next h =>
      intro htake
      have hs := List.take_append_drop 2 s
      rw [htake] at hs
      exact h _ hs.symm

end Parts

/-- Every text with a scheme and an authority has these parts. -/
theorem exists_hierarchical {s scheme authority : List Char}
    (hs : (parse s).scheme = some scheme) (ha : (parse s).authority = some authority) :
    ∃ rest, s = scheme ++ ':' :: '/' :: '/' :: (authority ++ rest) ∧ scheme ≠ [] ∧
      (∀ c ∈ scheme, endsScheme c = false) ∧ (∀ c ∈ authority, endsAuthority c = false) ∧
      ∀ c, rest.head? = some c → endsAuthority c = true := by
  refine ⟨(splitAuthority (splitScheme s).2).2, ?_, scheme_ne_nil hs,
    fun _ hc => endsScheme_of_mem hs hc, fun _ hc => endsAuthority_of_mem ha hc,
    fun _ hc => head_after_authority ha hc⟩
  change (splitScheme s).1 = some scheme at hs
  change (splitAuthority (splitScheme s).2).1 = some authority at ha
  have hafter := splitAuthority_text (splitScheme s).2
  rw [ha] at hafter
  have htext := splitScheme_text s
  rw [hs, ← hafter] at htext
  refine htext.symm.trans ?_
  simp only [schemeText, authorityText, List.append_assoc, List.cons_append, List.nil_append]

/-- **A hierarchical reference is read back.** -/
theorem parse_compose {scheme authority path : List Char} {query fragment : Option (List Char)}
    (hne : scheme ≠ []) (hscheme : ∀ c ∈ scheme, endsScheme c = false)
    (hauthority : ∀ c ∈ authority, endsAuthority c = false)
    (hpath : ∀ c ∈ path, endsPath c = false) (hroot : ∀ c, path.head? = some c → c = '/')
    (hquery : ∀ q, query = some q → '#' ∉ q) :
    parse (compose ⟨some scheme, some authority, path, query, fragment⟩) =
      ⟨some scheme, some authority, path, query, fragment⟩ := by
  have htail : ∀ c, (queryText query ++ fragmentText fragment).head? = some c → endsPath c = true := by
    intro c hc
    cases query with
    | some q =>
        cases hc
        rfl
    | none =>
        cases fragment with
        | some f =>
            cases hc
            rfl
        | none => cases hc
  have hrest : ∀ c, (path ++ (queryText query ++ fragmentText fragment)).head? = some c →
      endsAuthority c = true := by
    intro c hc
    cases path with
    | nil =>
        have := htail c hc
        unfold endsPath at this
        unfold endsAuthority
        rw [Bool.or_assoc, this, Bool.or_true]
    | cons d path =>
        have := hroot c hc
        subst this
        rfl
  have hcompose : compose ⟨some scheme, some authority, path, query, fragment⟩ =
      scheme ++ ':' :: '/' :: '/' :: (authority ++ (path ++ (queryText query ++
        fragmentText fragment))) := by
    simp [compose, schemeText, authorityText]
  have hquery' : splitQuery (queryText query ++ fragmentText fragment) =
      (query, fragmentText fragment) := by
    cases query with
    | none =>
        cases fragment with
        | none => rfl
        | some f => rfl
    | some q =>
        have hq : ∀ c ∈ q, (c == '#') = false := by
          intro c hc
          rw [beq_eq_false_iff_ne]
          rintro rfl
          exact hquery q rfl hc
        have hstop : ∀ c, (fragmentText fragment).head? = some c → (c == '#') = true := by
          intro c hc
          cases fragment with
          | none => cases hc
          | some f =>
              cases hc
              rfl
        show (some ((q ++ fragmentText fragment).takeWhile (!(· == '#') ·)),
          (q ++ fragmentText fragment).dropWhile (!(· == '#') ·)) = _
        rw [takeWhile_append_stop hq hstop, dropWhile_append_stop hq hstop]
  rw [hcompose, parse_hierarchical hne hscheme hauthority hrest, parseRest,
    takeWhile_append_stop hpath htail, dropWhile_append_stop hpath htail, hquery']
  cases fragment <;> rfl

/-! ## Dot segments -/

/-- Segments, each after a slash. -/
def slashed (segs : List (List Char)) : List Char := (segs.map ('/' :: ·)).flatten

/-- The segments `.` and `..`. -/
def IsDot (seg : List Char) : Prop := seg = ['.'] ∨ seg = ['.', '.']

instance (seg : List Char) : Decidable (IsDot seg) := inferInstanceAs (Decidable (_ ∨ _))

/-- The loop of `remove_dot_segments` on the segments of the input; the output buffer keeps
each segment with its slash.  A dot segment at the end leaves a slash behind. -/
def walkDots : List (List Char) → List (List Char) → List (List Char)
  | out, [] => out
  | out, [seg] =>
      if seg = ['.'] then out ++ [['/']]
      else if seg = ['.', '.'] then out.dropLast ++ [['/']]
      else out ++ ['/' :: seg]
  | out, seg :: next :: rest =>
      if seg = ['.'] then walkDots out (next :: rest)
      else if seg = ['.', '.'] then walkDots out.dropLast (next :: rest)
      else walkDots (out ++ ['/' :: seg]) (next :: rest)

/-- `remove_dot_segments`: in a path without a leading slash the dot segments in front go
first, and the first segment that stays has no slash. -/
def removeDotSegments (path : List Char) : List Char :=
  match path.splitOn '/' with
  | [] :: segs => (walkDots [] segs).flatten
  | segs =>
      match segs.dropWhile fun seg => decide (IsDot seg) with
      | [] => []
      | first :: rest => (walkDots [first] rest).flatten

/-- No segment of the path is a dot segment. -/
def DotFree (path : List Char) : Prop := ∀ seg ∈ path.splitOn '/', ¬ IsDot seg

instance (path : List Char) : Decidable (DotFree path) :=
  inferInstanceAs (Decidable (∀ seg ∈ path.splitOn '/', ¬ IsDot seg))

section Dots

variable {segs out : List (List Char)} {path : List Char}

theorem slashed_cons (seg : List Char) : slashed (seg :: segs) = '/' :: seg ++ slashed segs := rfl

theorem slashed_append (segs' : List (List Char)) :
    slashed (segs ++ segs') = slashed segs ++ slashed segs' := by
  rw [slashed, List.map_append, List.flatten_append]
  rfl

/-- A path and its segments. -/
theorem splitOn_slashed {first : List Char} (hfirst : '/' ∉ first)
    (hsegs : ∀ seg ∈ segs, '/' ∉ seg) : (first ++ slashed segs).splitOn '/' = first :: segs := by
  induction segs generalizing first with
  | nil =>
      show (first ++ []).splitOn '/' = [first]
      rw [List.append_nil, List.splitOn_eq_singleton hfirst]
  | cons seg segs ih =>
      rw [List.forall_mem_cons] at hsegs
      rw [slashed_cons, List.cons_append, List.splitOn_append_cons_self,
        List.splitOn_eq_singleton hfirst, ih hsegs.1 hsegs.2]
      rfl

theorem exists_segments (path : List Char) :
    ∃ first segs, path = first ++ slashed segs ∧ '/' ∉ first ∧ ∀ seg ∈ segs, '/' ∉ seg := by
  induction path with
  | nil => exact ⟨[], [], rfl, List.not_mem_nil, fun _ h => absurd h List.not_mem_nil⟩
  | cons c path ih =>
      obtain ⟨first, segs, rfl, hfirst, hsegs⟩ := ih
      by_cases hc : c = '/'
      · subst hc
        exact ⟨[], first :: segs, rfl, List.not_mem_nil, List.forall_mem_cons.mpr ⟨hfirst, hsegs⟩⟩
      · refine ⟨c :: first, segs, rfl, fun h => ?_, hsegs⟩
        rcases List.mem_cons.mp h with h | h
        · exact hc h.symm
        · exact hfirst h

/-- A path that begins with a slash. -/
theorem exists_slashed (h : path.head? = some '/') :
    ∃ segs, path = slashed segs ∧ segs ≠ [] ∧ ∀ seg ∈ segs, '/' ∉ seg := by
  obtain ⟨first, segs, rfl, hfirst, hsegs⟩ := exists_segments path
  cases first with
  | nil =>
      refine ⟨segs, rfl, ?_, hsegs⟩
      rintro rfl
      cases h
  | cons c first =>
      rw [List.cons_append, List.head?_cons, Option.some.injEq] at h
      subst h
      exact absurd List.mem_cons_self hfirst

theorem removeDotSegments_slashed (hsegs : ∀ seg ∈ segs, '/' ∉ seg) :
    removeDotSegments (slashed segs) = (walkDots [] segs).flatten := by
  have h := splitOn_slashed List.not_mem_nil hsegs
  rw [List.nil_append] at h
  rw [removeDotSegments, h]

theorem dotFree_slashed (hsegs : ∀ seg ∈ segs, '/' ∉ seg) :
    DotFree (slashed segs) ↔ ∀ seg ∈ segs, ¬ IsDot seg := by
  have h := splitOn_slashed List.not_mem_nil hsegs
  rw [List.nil_append] at h
  rw [DotFree, h, List.forall_mem_cons]
  exact ⟨fun h => h.2, fun h => ⟨by decide, h⟩⟩

/-- Plain segments are moved to the output. -/
theorem walkDots_plain (hplain : ∀ seg ∈ segs, ¬ IsDot seg) (out : List (List Char)) :
    walkDots out segs = out ++ segs.map ('/' :: ·) := by
  induction segs generalizing out with
  | nil => exact (List.append_nil out).symm
  | cons seg segs ih =>
      rw [List.forall_mem_cons, IsDot, not_or] at hplain
      cases segs with
      | nil => rw [walkDots, if_neg hplain.1.1, if_neg hplain.1.2, List.map_singleton]
      | cons next rest =>
          rw [walkDots, if_neg hplain.1.1, if_neg hplain.1.2, ih hplain.2, List.append_assoc]
          rfl

/-- They are, whatever came before them. -/
theorem walkDots_append_plain (pre : List (List Char)) (hne : segs ≠ [])
    (hplain : ∀ seg ∈ segs, ¬ IsDot seg) (out : List (List Char)) :
    ∃ out', walkDots out (pre ++ segs) = out' ++ segs.map ('/' :: ·) := by
  induction pre generalizing out with
  | nil => exact ⟨out, walkDots_plain hplain out⟩
  | cons seg pre ih =>
      obtain ⟨next, rest, hrest⟩ := List.exists_cons_of_ne_nil
        (List.append_ne_nil_of_right_ne_nil pre hne)
      rw [hrest] at ih
      rw [List.cons_append, hrest, walkDots]
      split
      · exact ih out
      · split
        · exact ih out.dropLast
        · exact ih (out ++ ['/' :: seg])

/-- **A path without dot segments is left alone.** -/
theorem removeDotSegments_of_plain (hroot : path = [] ∨ path.head? = some '/')
    (h : DotFree path) : removeDotSegments path = path := by
  rcases hroot with rfl | hroot
  · rfl
  · obtain ⟨segs, rfl, hne, hsegs⟩ := exists_slashed hroot
    rw [removeDotSegments_slashed hsegs, walkDots_plain ((dotFree_slashed hsegs).mp h)]
    rfl

/-- What the output holds: plain segments with their slashes. -/
theorem walkDots_output (out : List (List Char)) (hsegs : ∀ seg ∈ segs, '/' ∉ seg)
    (hout : ∃ kept : List (List Char), out = kept.map ('/' :: ·) ∧
      ∀ seg ∈ kept, '/' ∉ seg ∧ ¬ IsDot seg) :
    ∃ kept : List (List Char), walkDots out segs = kept.map ('/' :: ·) ∧
      (∀ seg ∈ kept, '/' ∉ seg ∧ ¬ IsDot seg) ∧ kept.length ≤ out.length + segs.length := by
  have hslash : ∀ kept : List (List Char), (∀ seg ∈ kept, '/' ∉ seg ∧ ¬ IsDot seg) →
      ∀ seg ∈ kept ++ [[]], '/' ∉ seg ∧ ¬ IsDot seg := by
    intro kept hkept seg hseg
    rcases List.mem_append.mp hseg with hseg | hseg
    · exact hkept seg hseg
    · rw [List.mem_singleton.mp hseg]
      decide
  have hpush : ∀ kept : List (List Char), (∀ seg ∈ kept, '/' ∉ seg ∧ ¬ IsDot seg) →
      ∀ seg, '/' ∉ seg → ¬ IsDot seg → ∀ s ∈ kept ++ [seg], '/' ∉ s ∧ ¬ IsDot s := by
    intro kept hkept seg hseg hdot s hs
    rcases List.mem_append.mp hs with hs | hs
    · exact hkept s hs
    · rw [List.mem_singleton.mp hs]
      exact ⟨hseg, hdot⟩
  induction segs generalizing out with
  | nil =>
      obtain ⟨kept, rfl, hkept⟩ := hout
      exact ⟨kept, rfl, hkept, by rw [List.length_map]; omega⟩
  | cons seg segs ih =>
      obtain ⟨kept, rfl, hkept⟩ := hout
      rw [List.forall_mem_cons] at hsegs
      have hdrop : ∀ s ∈ kept.dropLast, '/' ∉ s ∧ ¬ IsDot s := fun s hs =>
        hkept s (List.mem_of_mem_dropLast hs)
      cases segs with
      | nil =>
          rw [walkDots]
          split
          · refine ⟨kept ++ [[]], ?_, hslash kept hkept, ?_⟩
            · rw [List.map_append]
              rfl
            · simp
          · split
            · refine ⟨kept.dropLast ++ [[]], ?_, hslash _ hdrop, ?_⟩
              · rw [List.map_append, List.map_dropLast]
                rfl
              · simp
            · next hdot hdots =>
                refine ⟨kept ++ [seg], ?_, hpush kept hkept seg hsegs.1 ?_, ?_⟩
                · rw [List.map_append]
                  rfl
                · rintro (h | h)
                  · exact hdot h
                  · exact hdots h
                · simp
      | cons next rest =>
          rw [walkDots]
          split
          · obtain ⟨kept', hwalk, hkept', hlen⟩ := ih (kept.map ('/' :: ·)) hsegs.2
              ⟨kept, rfl, hkept⟩
            refine ⟨kept', hwalk, hkept', ?_⟩
            simp only [List.length_cons, List.length_map] at hlen ⊢
            omega
          · split
            · obtain ⟨kept', hwalk, hkept', hlen⟩ := ih (kept.map ('/' :: ·)).dropLast
                hsegs.2 ⟨kept.dropLast, by rw [List.map_dropLast], hdrop⟩
              refine ⟨kept', hwalk, hkept', ?_⟩
              simp only [List.length_cons, List.length_map, List.length_dropLast] at hlen ⊢
              omega
            · next hdot hdots =>
                obtain ⟨kept', hwalk, hkept', hlen⟩ := ih (kept.map ('/' :: ·) ++ ['/' :: seg])
                  hsegs.2 ⟨kept ++ [seg], by rw [List.map_append]; rfl,
                    hpush kept hkept seg hsegs.1 (by
                      rintro (h | h)
                      · exact hdot h
                      · exact hdots h)⟩
                refine ⟨kept', hwalk, hkept', ?_⟩
                simp only [List.length_cons, List.length_map, List.length_append,
                  List.length_nil] at hlen ⊢
                omega

theorem count_slashed (hsegs : ∀ seg ∈ segs, '/' ∉ seg) :
    (slashed segs).count '/' = segs.length := by
  induction segs with
  | nil => rfl
  | cons seg segs ih =>
      rw [List.forall_mem_cons] at hsegs
      rw [slashed_cons, List.cons_append, List.count_cons_self, List.count_append,
        List.count_eq_zero_of_not_mem hsegs.1, ih hsegs.2, List.length_cons]
      omega

/-- **The result of a rooted path** has no dot segments and no more segments than the path. -/
theorem removeDotSegments_spec (hroot : path = [] ∨ path.head? = some '/') :
    DotFree (removeDotSegments path) ∧
      (removeDotSegments path).count '/' ≤ path.count '/' := by
  rcases hroot with rfl | hroot
  · exact ⟨by decide, le_rfl⟩
  · obtain ⟨segs, rfl, -, hsegs⟩ := exists_slashed hroot
    obtain ⟨kept, hwalk, hkept, hlen⟩ := walkDots_output [] hsegs
      ⟨[], rfl, fun _ h => absurd h List.not_mem_nil⟩
    have hresult : removeDotSegments (slashed segs) = slashed kept := by
      rw [removeDotSegments_slashed hsegs, hwalk]
      rfl
    rw [hresult, count_slashed hsegs, count_slashed fun s hs => (hkept s hs).1,
      dotFree_slashed fun s hs => (hkept s hs).1]
    refine ⟨fun s hs => (hkept s hs).2, ?_⟩
    rw [List.length_nil] at hlen
    omega

/-- Plain segments at the end of a path stay. -/
theorem length_le_count (pre : List (List Char)) (hpre : ∀ seg ∈ pre, '/' ∉ seg)
    (hsegs : ∀ seg ∈ segs, '/' ∉ seg) (hne : segs ≠ []) (hplain : ∀ seg ∈ segs, ¬ IsDot seg) :
    segs.length ≤ (removeDotSegments (slashed (pre ++ segs))).count '/' := by
  obtain ⟨out, hwalk⟩ := walkDots_append_plain pre hne hplain []
  have hall : ∀ seg ∈ pre ++ segs, '/' ∉ seg := by
    intro seg hseg
    exact (List.mem_append.mp hseg).elim (hpre seg) (hsegs seg)
  rw [removeDotSegments_slashed hall, hwalk, List.flatten_append, List.count_append]
  have hcount : (segs.map ('/' :: ·)).flatten.count '/' = segs.length := count_slashed hsegs
  omega

end Dots

/-! ## Resolution -/

/-- `merge`: the reference's path in place of the last segment of the base's. -/
def merge (base : UriReference) (path : List Char) : List Char :=
  if base.authority.isSome ∧ base.path = [] then '/' :: path
  else (base.path.reverse.dropWhile (· != '/')).reverse ++ path

/-- **Reference resolution** (section 5.2.2, strict). -/
def resolve (base ref : UriReference) : UriReference :=
  match ref.scheme with
  | some _ => { ref with path := removeDotSegments ref.path }
  | none =>
      match ref.authority with
      | some _ => { ref with scheme := base.scheme, path := removeDotSegments ref.path }
      | none =>
          { scheme := base.scheme
            authority := base.authority
            path :=
              if ref.path = [] then base.path
              else if ref.path.head? = some '/' then removeDotSegments ref.path
              else removeDotSegments (merge base ref.path)
            query := if ref.path = [] then ref.query <|> base.query else ref.query
            fragment := ref.fragment }

/-- A rooted base path and a relative path make one rooted path. -/
theorem merge_slashed {base : UriReference} (hauthority : base.authority.isSome)
    (hroot : base.path = [] ∨ base.path.head? = some '/') (first : List Char)
    (rest : List (List Char)) :
    ∃ pre : List (List Char), (∀ seg ∈ pre, '/' ∉ seg) ∧
      merge base (first ++ slashed rest) = slashed (pre ++ first :: rest) := by
  rcases hroot with hnil | hroot
  · refine ⟨[], fun _ h => absurd h List.not_mem_nil, ?_⟩
    rw [merge, if_pos ⟨hauthority, hnil⟩, List.nil_append, slashed_cons]
    rfl
  · obtain ⟨segs, hpath, hne, hsegs⟩ := exists_slashed hroot
    rw [merge, if_neg (by rintro ⟨-, h⟩; rw [h] at hroot; cases hroot)]
    obtain ⟨init, last, hconcat⟩ := (List.eq_nil_or_concat segs).resolve_left hne
    rw [List.concat_eq_append] at hconcat
    subst hconcat
    have hlast : '/' ∉ last := hsegs last (List.mem_append_right _ List.mem_cons_self)
    refine ⟨init, fun seg h => hsegs seg (List.mem_append_left _ h), ?_⟩
    have hcut : (base.path.reverse.dropWhile (· != '/')).reverse = slashed init ++ ['/'] := by
      have hback : base.path.reverse = last.reverse ++ '/' :: (slashed init).reverse := by
        rw [hpath, slashed_append]
        simp [slashed]
      rw [hback]
      have hdrop := dropWhile_append_stop (p := (· == '/')) (a := last.reverse)
        (b := '/' :: (slashed init).reverse)
        (by
          intro c hc
          rw [beq_eq_false_iff_ne]
          rintro rfl
          exact hlast (List.mem_reverse.mp hc))
        (by
          rintro c ⟨⟩
          rfl)
      have hbne : (fun c : Char => !(c == '/')) = (· != '/') := rfl
      rw [hbne] at hdrop
      rw [hdrop, List.reverse_cons, List.reverse_reverse]
    rw [hcut, slashed_append, slashed_cons, List.append_assoc]
    rfl

/-! ## Percent-encoding -/

/-- A digit of a percent-encoding. -/
def hexDigit (n : ℕ) : Char := if n < 10 then Char.ofNat (48 + n) else Char.ofNat (55 + n)

/-- `unreserved` (section 2.3). -/
def isUnreserved (c : Char) : Bool :=
  c.isAlphanum || c == '-' || c == '.' || c == '_' || c == '~'

/-- The percent-encoding of a byte. -/
def encodeByte (b : UInt8) : List Char := ['%', hexDigit (b.toNat / 16), hexDigit (b.toNat % 16)]

/-- A text as one segment: every character that is not unreserved is percent-encoded, byte by
byte of its UTF-8 encoding. -/
def percentEncode (s : List Char) : List Char :=
  s.flatMap fun c => if isUnreserved c then [c] else (String.utf8EncodeChar c).flatMap encodeByte

theorem endsAuthority_hexDigit {n : ℕ} (h : n < 16) : endsAuthority (hexDigit n) = false := by
  interval_cases n <;> rfl

theorem endsAuthority_encodeByte {b : UInt8} {c : Char} (h : c ∈ encodeByte b) :
    endsAuthority c = false := by
  have hb : b.toNat < 256 := UInt8.toNat_lt b
  rcases List.mem_cons.mp h with rfl | h
  · rfl
  · rcases List.mem_cons.mp h with rfl | h
    · exact endsAuthority_hexDigit (by omega)
    · rw [List.mem_singleton.mp h]
      exact endsAuthority_hexDigit (by omega)

theorem endsAuthority_unreserved {c : Char} (h : isUnreserved c = true) :
    endsAuthority c = false := by
  unfold endsAuthority
  simp only [Bool.or_eq_false_iff, beq_eq_false_iff_ne]
  refine ⟨⟨?_, ?_⟩, ?_⟩ <;>
  · rintro rfl
    exact absurd h (by decide)

/-- **An encoded segment** has no delimiter in it. -/
theorem endsAuthority_percentEncode {s : List Char} {c : Char} (h : c ∈ percentEncode s) :
    endsAuthority c = false := by
  obtain ⟨d, -, hc⟩ := List.mem_flatMap.mp h
  split at hc
  · next hd =>
      rw [List.mem_singleton.mp hc]
      exact endsAuthority_unreserved hd
  · obtain ⟨b, -, hb⟩ := List.mem_flatMap.mp hc
    exact endsAuthority_encodeByte hb

/-! ## What a reference names -/

/-- The letters of a scheme or a host, in lower case. -/
def lower (s : List Char) : List Char := s.map Char.toLower

/-- The user information of an authority, and the rest. -/
def splitUserinfo (authority : List Char) : Option (List Char) × List Char :=
  if '@' ∈ authority then
    (some (authority.takeWhile (· != '@')), (authority.dropWhile (· != '@')).drop 1)
  else (none, authority)

/-- A port after its colon. -/
def portText : List Char → Option (List Char)
  | ':' :: port => some port
  | _ => none

/-- The host, with the brackets of an IP literal, and the port. -/
def splitPort (hostport : List Char) : List Char × Option (List Char) :=
  if hostport.head? = some '[' then
    (hostport.takeWhile (· != ']') ++ [']'], portText ((hostport.dropWhile (· != ']')).drop 1))
  else (hostport.takeWhile (· != ':'), portText (hostport.dropWhile (· != ':')))

/-- The default ports. -/
def defaultPort (scheme : List Char) : Option ℕ :=
  if scheme = "http".toList then some 80
  else if scheme = "https".toList then some 443
  else none

/-- The value of a decimal text. -/
def digitsValue (s : List Char) : ℕ := s.foldl (fun n c => 10 * n + (c.toNat - '0'.toNat)) 0

/-- The number of a port; an empty or missing one is the default of the scheme. -/
def portNumber (scheme : Option (List Char)) : Option (List Char) → Option ℕ
  | none => scheme.bind defaultPort
  | some port =>
      if port = [] then scheme.bind defaultPort
      else if port.all Char.isDigit then some (digitsValue port)
      else none

/-- Who is addressed: user information, host and port. -/
structure Endpoint where
  userinfo : Option (List Char)
  host : List Char
  port : Option ℕ
  deriving DecidableEq

/-- The endpoint an authority names under a scheme. -/
def endpoint (scheme : Option (List Char)) (authority : List Char) : Endpoint where
  userinfo := (splitUserinfo authority).1
  host := lower (splitPort (splitUserinfo authority).2).1
  port := portNumber scheme (splitPort (splitUserinfo authority).2).2

/-- **What a reference names.** -/
structure Address where
  scheme : Option (List Char)
  endpoint : Option Endpoint
  path : List Char
  query : Option (List Char)
  fragment : Option (List Char)
  deriving DecidableEq

/-- The address of a reference. -/
def address (u : UriReference) : Address where
  scheme := u.scheme.map lower
  endpoint := u.authority.map (UriReference.endpoint (u.scheme.map lower))
  path := u.path
  query := u.query
  fragment := u.fragment

end UriReference
