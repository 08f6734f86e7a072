/-
# Control URLs (`_resolve_service`, `send_request`)

The URL a gateway is sent its request at, against the resolution of the description's
`controlURL` against the URL of its profile.

* `urlparse_service` : what the library makes of a service URL;
* `parse_fullUrl` : the components of the URL that is put together from it;
* `ProfileUrl` : a profile URL, part by part;
* `endpoint_kept_iff` : when the host and the port come through;
* `cut`, `postedPath_slashed` : what comes through of the path;
* `Resolved`, `resolvesTo_iff` : when the URL is the resolution;
* `PostsResolution`, `control_url_iff` : the same of the programs.
-/
import StorageNode.GatewayFaults
import StorageNode.UriReference

open UriReference

namespace ControlUrl

/-! ## Schemes -/

/-- `http` or `https`, in any case. -/
def IsHttp (scheme : Text) : Prop :=
  lower scheme = "http".toList ∨ lower scheme = "https".toList

instance (scheme : Text) : Decidable (IsHttp scheme) := inferInstanceAs (Decidable (_ ∨ _))

section Scheme

variable {scheme : Text}

theorem isAlpha_of_isHttp (h : IsHttp scheme) {c : Char} (hc : c ∈ scheme) : c.isAlpha = true := by
  have hmem : c.toLower ∈ lower scheme := List.mem_map_of_mem hc
  have hletters : ("http".toList.all Char.isAlpha && "https".toList.all Char.isAlpha) = true := by
    decide
  rw [Bool.and_eq_true, List.all_eq_true, List.all_eq_true] at hletters
  rw [← Char.isAlpha_toLower_eq_isAlpha]
  rcases h with h | h
  · rw [h] at hmem
    exact hletters.1 _ hmem
  · rw [h] at hmem
    exact hletters.2 _ hmem

theorem ne_nil_of_isHttp (h : IsHttp scheme) : scheme ≠ [] := by
  rintro rfl
  exact absurd h (by decide)

theorem lower_lower (s : Text) : lower (lower s) = lower s := by
  simp only [lower, List.map_map]
  exact List.map_congr_left fun c _ => Char.toLower_toLower_eq_toLower c

theorem isHttp_lower (h : IsHttp scheme) : IsHttp (lower scheme) := by
  rw [IsHttp, lower_lower]
  exact h

/-- A letter is no delimiter. -/
theorem endsScheme_of_isAlpha {c : Char} (h : c.isAlpha = true) : endsScheme c = false := by
  unfold endsScheme
  simp only [Bool.or_eq_false_iff, beq_eq_false_iff_ne]
  refine ⟨⟨⟨?_, ?_⟩, ?_⟩, ?_⟩ <;>
  · rintro rfl
    exact absurd h (by decide)

theorem endsScheme_of_isHttp (h : IsHttp scheme) : ∀ c ∈ scheme, endsScheme c = false :=
  fun _ hc => endsScheme_of_isAlpha (isAlpha_of_isHttp h hc)

/-- The characters the library strips and removes are no letters. -/
theorem plain_of_isAlpha {c : Char} (h : c.isAlpha = true) :
    ¬ c.toNat ≤ 32 ∧ c ∉ UrlParse.unsafeChars := by
  have hlow : ¬ c.toNat ≤ 32 := by
    simp only [Char.isAlpha, Char.isUpper, Char.isLower, Bool.or_eq_true, Bool.and_eq_true,
      decide_eq_true_eq, UInt32.le_iff_toNat_le, ge_iff_le] at h
    have hval : c.val.toNat = c.toNat := rfl
    rw [hval] at h
    rcases h with ⟨h, -⟩ | ⟨h, -⟩
    · have : (65 : ℕ) ≤ c.toNat := h
      omega
    · have : (97 : ℕ) ≤ c.toNat := h
      omega
  refine ⟨hlow, fun hmem => hlow ?_⟩
  rcases List.mem_cons.mp hmem with rfl | hmem
  · decide
  · rcases List.mem_cons.mp hmem with rfl | hmem
    · decide
    · rw [List.mem_singleton.mp hmem]
      decide

end Scheme

/-! ## `urlparse` on service URLs -/

/-- No delimiter ends the authority, and nothing is removed from it. -/
structure Plain (netloc : Text) : Prop where
  undelimited : ∀ c ∈ netloc, endsAuthority c = false
  kept : ∀ c ∈ netloc, c ∉ UrlParse.unsafeChars

/-- What the library takes for the authority of a reference appended to a `netloc`. -/
def appended (ref : Text) : Text := (UrlParse.removeUnsafe ref).takeWhile (!endsAuthority ·)

/-- And what it takes for its path, before the parameters are split off. -/
def servicePath (ref : Text) : Text :=
  ((UrlParse.removeUnsafe ref).dropWhile (!endsAuthority ·)).takeWhile (!endsPath ·)

section Parse

variable {scheme netloc : Text}

theorem before_before (s : Text) :
    UrlParse.before '?' (UrlParse.before '#' s) = s.takeWhile (!endsPath ·) := by
  unfold UrlParse.before
  rw [List.takeWhile_takeWhile]
  congr 1
  funext c
  unfold endsPath
  by_cases hq : c = '?'
  · simp [hq]
  · by_cases hf : c = '#'
    · simp [hf]
    · simp [hq, hf]

/-- The library's stripping and removing, before the reference. -/
theorem cleaned (hs : IsHttp scheme) (hn : Plain netloc) (ref : Text) :
    UrlParse.removeUnsafe (UrlParse.lstrip (scheme ++ "://".toList ++ netloc ++ ref)) =
      scheme ++ ':' :: '/' :: '/' :: (netloc ++ UrlParse.removeUnsafe ref) := by
  have hstrip : UrlParse.lstrip (scheme ++ "://".toList ++ netloc ++ ref) =
      scheme ++ "://".toList ++ netloc ++ ref := by
    obtain ⟨c, rest, hcons⟩ := List.exists_cons_of_ne_nil (ne_nil_of_isHttp hs)
    have hc := plain_of_isAlpha (isAlpha_of_isHttp hs (by rw [hcons]; exact List.mem_cons_self))
    rw [hcons]
    exact List.dropWhile_cons_of_neg (by rw [decide_eq_true_eq]; exact hc.1)
  have hscheme : UrlParse.removeUnsafe scheme = scheme := by
    refine List.filter_eq_self.mpr fun c hc => decide_eq_true ?_
    exact (plain_of_isAlpha (isAlpha_of_isHttp hs hc)).2
  have hnetloc : UrlParse.removeUnsafe netloc = netloc :=
    List.filter_eq_self.mpr fun c hc => decide_eq_true (hn.kept c hc)
  have hslashes : UrlParse.removeUnsafe "://".toList = "://".toList := by decide
  have happend : ∀ a b, UrlParse.removeUnsafe (a ++ b) =
      UrlParse.removeUnsafe a ++ UrlParse.removeUnsafe b := fun _ _ => List.filter_append _ _
  rw [hstrip, happend, happend, happend, hscheme, hslashes, hnetloc, List.append_assoc,
    List.append_assoc]
  rfl

theorem splitScheme_http (hs : IsHttp scheme) (rest : Text) :
    UrlParse.splitScheme (scheme ++ ':' :: rest) = (lower scheme, rest) := by
  have hcolon : ∀ c ∈ scheme, (c == ':') = false := by
    intro c hc
    have := endsScheme_of_isHttp hs c hc
    unfold endsScheme at this
    simp only [Bool.or_eq_false_iff] at this
    exact this.1.1.1
  have hbefore : UrlParse.before ':' (scheme ++ ':' :: rest) = scheme :=
    takeWhile_append_stop (p := (· == ':')) hcolon (by rintro c ⟨⟩; rfl)
  have hafter : UrlParse.after ':' (scheme ++ ':' :: rest) = rest := by
    have hdrop := dropWhile_append_stop (p := (· == ':')) (b := ':' :: rest) hcolon
      (by rintro c ⟨⟩; rfl)
    unfold UrlParse.after
    exact congrArg (List.drop 1) hdrop
  have hchars : (scheme.head?.any Char.isAlpha && scheme.all UrlParse.isSchemeChar) = true := by
    rw [Bool.and_eq_true, List.all_eq_true]
    constructor
    · obtain ⟨c, s, hcons⟩ := List.exists_cons_of_ne_nil (ne_nil_of_isHttp hs)
      rw [hcons]
      exact isAlpha_of_isHttp hs (by rw [hcons]; exact List.mem_cons_self)
    · intro c hc
      simp only [UrlParse.isSchemeChar, Char.isAlphanum, isAlpha_of_isHttp hs hc, Bool.true_or]
  simp only [UrlParse.splitScheme, hbefore, hafter]
  rw [if_pos ⟨by simp, hchars⟩]
  rfl

/-- **`urlparse` of a service URL**: its scheme, its `netloc` with what the reference adds to
it, and the path without the parameters of its last segment. -/
theorem urlparse_service (checks : UrlParse.UrlChecks) (hs : IsHttp scheme) (hn : Plain netloc)
    (ref : Text) : ∃ params query fragment,
    UrlParse.urlparse checks (scheme ++ "://".toList ++ netloc ++ ref) =
      if checks.accepts (netloc ++ appended ref) then
        .ok { scheme := lower scheme, netloc := netloc ++ appended ref
              path := (UrlParse.splitParams (servicePath ref)).1
              params := params, query := query, fragment := fragment }
      else .error .valueError := by
  have hdelims : (fun c => !UrlParse.isDelim c) = fun c => !endsAuthority c := rfl
  have htake : (netloc ++ UrlParse.removeUnsafe ref).takeWhile (!endsAuthority ·) =
      netloc ++ appended ref := by
    rw [List.takeWhile_append_of_pos fun c hc => by rw [hn.undelimited c hc]; rfl]
    rfl
  have hdrop : (netloc ++ UrlParse.removeUnsafe ref).dropWhile (!endsAuthority ·) =
      (UrlParse.removeUnsafe ref).dropWhile (!endsAuthority ·) :=
    List.dropWhile_append_of_pos fun c hc => by rw [hn.undelimited c hc]; rfl
  have huses : lower scheme ∈ UrlParse.usesParams := by
    rcases hs with h | h
    · rw [h]
      decide
    · rw [h]
      decide
  simp only [UrlParse.urlparse, UrlParse.urlsplit, cleaned hs hn, splitScheme_http hs,
    List.take_succ_cons, List.take_zero, List.drop_succ_cons, List.drop_zero, if_true, hdelims,
    htake, hdrop, before_before]
  by_cases haccepts : checks.accepts (netloc ++ appended ref) = true
  · simp only [if_pos haccepts]
    exact ⟨_, _, _, if_pos huses⟩
  · simp only [if_neg haccepts]
    exact ⟨[], [], [], rfl⟩

end Parse

/-! ## The host name and the port -/

section Characters

variable {c x : Char}

/-- Lower-casing makes no delimiter. -/
theorem toLower_eq_iff (hx : x.isAlpha = false) : c.toLower = x ↔ c = x := by
  constructor
  · intro h
    have hc : c.isAlpha = false := by
      rw [← Char.isAlpha_toLower_eq_isAlpha, h, hx]
    rw [Char.isAlpha, Bool.or_eq_false_iff] at hc
    rw [← h, Char.toLower_eq_of_not_isUpper (by rw [hc.1]; decide)]
  · rintro rfl
    rw [Char.isAlpha, Bool.or_eq_false_iff] at hx
    exact Char.toLower_eq_of_not_isUpper (by rw [hx.1]; decide)

theorem mem_lower_iff (hx : x.isAlpha = false) {s : Text} : x ∈ lower s ↔ x ∈ s := by
  rw [lower, List.mem_map]
  constructor
  · rintro ⟨c, hc, h⟩
    rwa [← (toLower_eq_iff hx).mp h]
  · exact fun h => ⟨x, h, (toLower_eq_iff hx).mpr rfl⟩

/-- What is partitioned is put together again. -/
theorem before_after {s : Text} (h : c ∈ s) : UrlParse.before c s ++ c :: UrlParse.after c s = s := by
  have hne : s.dropWhile (· != c) ≠ [] := by
    intro hnil
    have := List.dropWhile_eq_nil_iff.mp hnil c h
    exact absurd rfl (bne_iff_ne.mp this)
  have hhead : (s.dropWhile (· != c)).head hne = c := by
    have := List.head_dropWhile_not (· != c) hne
    simpa using this
  have hcons := List.cons_head_tail hne
  rw [hhead] at hcons
  unfold UrlParse.before UrlParse.after
  rw [List.drop_one, hcons, List.takeWhile_append_dropWhile]

theorem mem_of_mem_before {s : Text} (h : x ∈ UrlParse.before c s) : x ∈ s :=
  ( List.takeWhile_prefix _).subset h

theorem mem_of_mem_after {s : Text} (h : x ∈ UrlParse.after c s) : x ∈ s :=
  (List.dropWhile_suffix _).subset (List.drop_subset _ _ h)

theorem mem_of_mem_afterLast {s : Text} (h : x ∈ UrlParse.afterLast c s) : x ∈ s :=
  List.mem_reverse.mp (( List.takeWhile_prefix _).subset (List.mem_reverse.mp h))

end Characters

section Hostname

variable {r : UrlParse.ParseResult} {x : Char}

theorem hostinfo_bracketed (h : '[' ∈ UrlParse.afterLast '@' r.netloc) : r.hostinfo.1 =
    UrlParse.before ']' (UrlParse.after '[' (UrlParse.afterLast '@' r.netloc)) := by
  unfold UrlParse.ParseResult.hostinfo
  simp only [if_pos h]

theorem hostinfo_plain (h : '[' ∉ UrlParse.afterLast '@' r.netloc) : r.hostinfo =
    (UrlParse.before ':' (UrlParse.afterLast '@' r.netloc),
      if UrlParse.after ':' (UrlParse.afterLast '@' r.netloc) = [] then none
      else some (UrlParse.after ':' (UrlParse.afterLast '@' r.netloc))) := by
  unfold UrlParse.ParseResult.hostinfo
  simp only [if_neg h]

theorem mem_netloc_of_mem_hostinfo (h : x ∈ r.hostinfo.1) : x ∈ r.netloc := by
  by_cases hbracket : '[' ∈ UrlParse.afterLast '@' r.netloc
  · rw [hostinfo_bracketed hbracket] at h
    exact mem_of_mem_afterLast (mem_of_mem_after (mem_of_mem_before h))
  · rw [hostinfo_plain hbracket] at h
    exact mem_of_mem_afterLast (mem_of_mem_before h)

/-- The host name is the host, but for the case of its letters. -/
theorem lower_hostname (h : r.hostinfo.1 ≠ []) :
    lower (optionText r.hostname) = lower r.hostinfo.1 := by
  have hlower : UrlParse.lower = lower := rfl
  simp only [UrlParse.ParseResult.hostname, if_neg h, hlower]
  by_cases hzone : '%' ∈ r.hostinfo.1
  · have hall := congrArg lower (before_after hzone)
    rw [if_pos hzone]
    refine Eq.trans ?_ hall
    show lower (lower _ ++ '%' :: _) = _
    have happend : ∀ a b, lower (a ++ b) = lower a ++ lower b := fun _ _ => List.map_append
    rw [happend, happend, lower_lower]
  · rw [if_neg hzone]
    exact lower_lower _

/-- No delimiter comes into it. -/
theorem not_mem_hostname (hx : x.isAlpha = false) (h : x ∉ r.hostinfo.1) :
    x ∉ optionText r.hostname := by
  by_cases hnil : r.hostinfo.1 = []
  · rw [UrlParse.ParseResult.hostname, if_pos hnil]
    intro hmem
    have hletters : "None".toList.all Char.isAlpha = true := by decide
    rw [List.all_eq_true.mp hletters x hmem] at hx
    cases hx
  · rw [← mem_lower_iff hx, lower_hostname hnil, mem_lower_iff hx]
    exact h

/-- The text of a port. -/
def portPart (port : Option ℕ) : Text := optionText (port.map fun p => intText p)

theorem intText_natCast (n : ℕ) : intText n = Nat.toDigits 10 n := Nat.toList_repr

theorem isAlphanum_portPart {port : Option ℕ} (h : x ∈ portPart port) : x.isAlphanum = true := by
  cases port with
  | none =>
      have hletters : "None".toList.all Char.isAlphanum = true := by decide
      exact List.all_eq_true.mp hletters x h
  | some n =>
      change x ∈ intText n at h
      rw [intText_natCast] at h
      rw [Char.isAlphanum, Nat.isDigit_of_mem_toDigits (by decide) (by decide) h, Bool.or_true]

/-- The number of a port is read back; without one the text is no number. -/
theorem portNumber_portPart (scheme : Option Text) (port : Option ℕ) :
    portNumber scheme (some (portPart port)) = port := by
  cases port with
  | none => rfl
  | some n =>
      have htext : portPart (some n) = Nat.toDigits 10 n := intText_natCast n
      have hdigits : (Nat.toDigits 10 n).all Char.isDigit = true := by
        rw [List.all_eq_true]
        exact fun c hc => Nat.isDigit_of_mem_toDigits (by decide) (by decide) hc
      rw [htext, portNumber, if_neg Nat.toDigits_ne_nil, if_pos hdigits]
      exact congrArg some Nat.ofDigitChars_ten_toDigits

end Hostname

/-! ## The URL of a request -/

section Posted

variable {r : UrlParse.ParseResult} {u : Text}

/-- The authority of the URL of a request. -/
def postedAuthority (r : UrlParse.ParseResult) (port : Option ℕ) : Text :=
  optionText r.hostname ++ ':' :: portPart port

theorem not_mem_postedAuthority {x : Char} (hx : x.isAlphanum = false) (hcolon : x ≠ ':')
    (h : x ∉ r.hostinfo.1) (port : Option ℕ) : x ∉ postedAuthority r port := by
  have halpha : x.isAlpha = false := by
    rw [Char.isAlphanum, Bool.or_eq_false_iff] at hx
    exact hx.1
  rw [postedAuthority, List.mem_append, List.mem_cons, not_or, not_or]
  refine ⟨not_mem_hostname halpha h, hcolon, fun hport => ?_⟩
  rw [isAlphanum_portPart hport] at hx
  cases hx

theorem fullUrl_eq_ok (h : SoapTransport.fullUrl r = .ok u) : ∃ port, r.port = .ok port ∧
    u = r.scheme ++ ':' :: '/' :: '/' :: (postedAuthority r port ++ r.path) := by
  unfold SoapTransport.fullUrl at h
  cases hport : r.port with
  | error e =>
      rw [hport] at h
      cases h
  | ok port =>
      rw [hport] at h
      refine ⟨port, rfl, ?_⟩
      obtain rfl := Except.ok.inj h
      have hslashes : "://".toList = [':', '/', '/'] := rfl
      rw [hslashes]
      simp only [postedAuthority, portPart, List.append_assoc, List.cons_append, List.nil_append]

/-- **The URL of a request, part by part**: the path is the one of the service URL, and what
follows it is gone. -/
theorem parse_fullUrl (hscheme : IsHttp r.scheme) (hnetloc : ∀ c ∈ r.netloc, endsAuthority c = false)
    (hpath : ∀ c ∈ r.path, endsPath c = false) (hroot : ∀ c, r.path.head? = some c → c = '/')
    (h : SoapTransport.fullUrl r = .ok u) : ∃ port, r.port = .ok port ∧
      parse u = ⟨some r.scheme, some (postedAuthority r port), r.path, none, none⟩ := by
  obtain ⟨port, hport, rfl⟩ := fullUrl_eq_ok h
  refine ⟨port, hport, ?_⟩
  have hauthority : ∀ c ∈ postedAuthority r port, endsAuthority c = false := by
    have hnone : ∀ x, endsAuthority x = true → x ∉ postedAuthority r port := by
      intro x hx
      refine not_mem_postedAuthority ?_ ?_ ?_ port
      · unfold endsAuthority at hx
        simp only [Bool.or_eq_true, beq_iff_eq] at hx
        rcases hx with (rfl | rfl) | rfl <;> rfl
      · rintro rfl
        exact absurd hx (by decide)
      · intro hmem
        rw [hnetloc x (mem_netloc_of_mem_hostinfo hmem)] at hx
        cases hx
    intro c hc
    exact Bool.eq_false_iff.mpr fun hend => hnone c hend hc
  have hcompose : parse (compose ⟨some r.scheme, some (postedAuthority r port), r.path, none, none⟩) =
      ⟨some r.scheme, some (postedAuthority r port), r.path, none, none⟩ :=
    parse_compose (ne_nil_of_isHttp hscheme) (endsScheme_of_isHttp hscheme) hauthority hpath hroot
      (by rintro q ⟨⟩)
  have htext : compose ⟨some r.scheme, some (postedAuthority r port), r.path, none, none⟩ =
      r.scheme ++ ':' :: '/' :: '/' :: (postedAuthority r port ++ r.path) := by
    simp [compose, schemeText, authorityText, queryText, fragmentText]
  rw [htext] at hcompose
  exact hcompose

end Posted

/-! ## Profile URLs -/

/-- `unreserved`, `pct-encoded` and `sub-delims`. -/
def isNameChar (c : Char) : Bool := isUnreserved c || c ∈ "%!$&'()*+,;=".toList

/-- A host. -/
inductive Host
  /-- a name or an IPv4 address -/
  | name (text : Text) (nonempty : text ≠ []) (chars : ∀ c ∈ text, isNameChar c = true)
  /-- an IPv6 address, with a zone perhaps, in brackets -/
  | ipv6 (text : Text) (chars : ∀ c ∈ text, (isNameChar c || c == ':') = true)

/-- The text of a host. -/
def Host.text : Host → Text
  | .name text _ _ => text
  | .ipv6 text _ => '[' :: text ++ [']']

/-- Whether it is a name. -/
def Host.isName : Host → Bool
  | .name _ _ _ => true
  | .ipv6 _ _ => false

/-- **A profile URL**: an `http` or `https` URL with a host; `rest` is its path, its query and
its fragment. -/
structure ProfileUrl where
  scheme : Text
  http : IsHttp scheme
  userinfo : Option Text
  userinfoChars : ∀ u, userinfo = some u → ∀ c ∈ u, (isNameChar c || c == ':') = true
  host : Host
  port : Option Text
  digits : ∀ p, port = some p → p.all Char.isDigit = true
  rest : Text
  rooted : ∀ c, rest.head? = some c → endsAuthority c = true

namespace ProfileUrl

variable (P : ProfileUrl)

/-- The host and the port. -/
def hostport : Text :=
  P.host.text ++
    match P.port with
    | none => []
    | some p => ':' :: p

/-- The authority. -/
def netloc : Text :=
  match P.userinfo with
  | none => P.hostport
  | some u => u ++ '@' :: P.hostport

/-- The text of the URL. -/
def text : Text := P.scheme ++ "://".toList ++ P.netloc ++ P.rest

/-- A name and a port are given, and nothing else: a number up to 65535, but no brackets and
no user information. -/
def Numbered : Prop :=
  P.userinfo = none ∧ P.host.isName = true ∧
    ∃ p, P.port = some p ∧ p ≠ [] ∧ UrlParse.ParseResult.intOf p ≤ 65535

end ProfileUrl

section Netloc

variable {c : Char} {P : ProfileUrl}

theorem lt_of_isNameChar (h : isNameChar c = true) : c.toNat < 128 := by
  rw [isNameChar, Bool.or_eq_true] at h
  rcases h with h | h
  · simp only [isUnreserved, Char.isAlphanum, Char.isAlpha, Char.isUpper, Char.isLower,
      Char.isDigit, Bool.or_eq_true, Bool.and_eq_true, decide_eq_true_eq, beq_iff_eq,
      UInt32.le_iff_toNat_le, ge_iff_le] at h
    have hval : c.val.toNat = c.toNat := rfl
    rw [hval] at h
    rcases h with ((((((⟨-, h⟩ | ⟨-, h⟩) | ⟨-, h⟩) | rfl) | rfl) | rfl) | rfl)
    · have : c.toNat ≤ 90 := h
      omega
    · have : c.toNat ≤ 122 := h
      omega
    · have : c.toNat ≤ 57 := h
      omega
    all_goals decide
  · have hall : "%!$&'()*+,;=".toList.all (fun c => decide (c.toNat < 128)) = true := by decide
    exact of_decide_eq_true (List.all_eq_true.mp hall c (of_decide_eq_true h))

/-- What a host is made of. -/
theorem mem_host (h : c ∈ P.host.text) :
    isNameChar c = true ∨ P.host.isName = false ∧ c ∈ [':', '[', ']'] := by
  cases hhost : P.host with
  | name text _ chars =>
      rw [hhost] at h
      exact .inl (chars c h)
  | ipv6 text chars =>
      rw [hhost] at h
      rcases List.mem_append.mp h with h | h
      · rcases List.mem_cons.mp h with rfl | h
        · exact .inr ⟨rfl, by decide⟩
        · have := chars c h
          rw [Bool.or_eq_true, beq_iff_eq] at this
          rcases this with h | rfl
          · exact .inl h
          · exact .inr ⟨rfl, by decide⟩
      · rw [List.mem_singleton.mp h]
        exact .inr ⟨rfl, by decide⟩

theorem isNameChar_of_isDigit (h : c.isDigit = true) : isNameChar c = true := by
  rw [isNameChar, isUnreserved, Char.isAlphanum, h]
  simp

theorem mem_hostport (h : c ∈ P.hostport) :
    isNameChar c = true ∨ c = ':' ∨ P.host.isName = false ∧ c ∈ [':', '[', ']'] := by
  unfold ProfileUrl.hostport at h
  rcases List.mem_append.mp h with h | h
  · exact (mem_host h).imp id .inr
  · cases hport : P.port with
    | none =>
        rw [hport] at h
        cases h
    | some p =>
        rw [hport] at h
        rcases List.mem_cons.mp h with rfl | h
        · exact .inr (.inl rfl)
        · exact .inl (isNameChar_of_isDigit (List.all_eq_true.mp (P.digits p hport) c h))

theorem not_mem_hostport : '@' ∉ P.hostport := by
  intro h
  rcases mem_hostport h with h | h | ⟨-, h⟩
  · exact absurd h (by decide)
  · exact absurd h (by decide)
  · exact absurd h (by decide)

theorem mem_netloc (h : c ∈ P.netloc) :
    isNameChar c = true ∨ c ∈ [':', '@'] ∨ P.host.isName = false ∧ c ∈ [':', '[', ']'] := by
  have hhost : c ∈ P.hostport →
      isNameChar c = true ∨ c ∈ [':', '@'] ∨ P.host.isName = false ∧ c ∈ [':', '[', ']'] := by
    intro h
    rcases mem_hostport h with h | rfl | h
    · exact .inl h
    · exact .inr (.inl (by decide))
    · exact .inr (.inr h)
  unfold ProfileUrl.netloc at h
  cases huser : P.userinfo with
  | none =>
      rw [huser] at h
      exact hhost h
  | some u =>
      rw [huser] at h
      rcases List.mem_append.mp h with h | h
      · have := P.userinfoChars u huser c h
        rw [Bool.or_eq_true, beq_iff_eq] at this
        rcases this with h | rfl
        · exact .inl h
        · exact .inr (.inl (by decide))
      · rcases List.mem_cons.mp h with rfl | h
        · exact .inr (.inl (by decide))
        · exact hhost h

/-- What is neither allowed in a name nor one of the delimiters of the parts is not in the
authority; a name brings no brackets with it. -/
theorem not_mem_netloc (hname : isNameChar c = false) (hparts : c ∉ [':', '@'])
    (hbrackets : P.host.isName = false → c ∉ [':', '[', ']']) : c ∉ P.netloc := by
  intro h
  rcases mem_netloc h with h | h | ⟨haddress, h⟩
  · rw [h] at hname
    cases hname
  · exact hparts h
  · exact hbrackets haddress h

/-- **The authority** has no delimiter in it and nothing the library removes. -/
theorem plain_netloc : Plain P.netloc := by
  have hnone : ∀ x, isNameChar x = false → x ∉ [':', '@', '[', ']'] → x ∉ P.netloc := by
    intro x hx hothers
    refine not_mem_netloc hx (fun h => hothers ?_) fun _ h => hothers ?_
    · simp only [List.mem_cons] at h ⊢
      tauto
    · simp only [List.mem_cons] at h ⊢
      tauto
  refine ⟨fun c hc => Bool.eq_false_iff.mpr fun hend => ?_, fun c hc hmem => ?_⟩
  · unfold endsAuthority at hend
    simp only [Bool.or_eq_true, beq_iff_eq] at hend
    rcases hend with (rfl | rfl) | rfl
    · exact hnone '/' (by decide) (by decide) hc
    · exact hnone '?' (by decide) (by decide) hc
    · exact hnone '#' (by decide) (by decide) hc
  · rcases List.mem_cons.mp hmem with rfl | hmem
    · exact hnone '\t' (by decide) (by decide) hc
    · rcases List.mem_cons.mp hmem with rfl | hmem
      · exact hnone '\r' (by decide) (by decide) hc
      · rw [List.mem_singleton.mp hmem] at hc
        exact hnone '\n' (by decide) (by decide) hc

/-- **A name passes the checks**, which are about brackets and characters beyond ASCII. -/
theorem accepts_netloc (checks : UrlParse.UrlChecks) (h : P.host.isName = true) :
    checks.accepts P.netloc = true := by
  have hnot : P.host.isName ≠ false := by
    rw [h]
    decide
  have hopen : '[' ∉ P.netloc :=
    not_mem_netloc (by decide) (by decide) fun haddress => absurd haddress hnot
  have hclose : ']' ∉ P.netloc :=
    not_mem_netloc (by decide) (by decide) fun haddress => absurd haddress hnot
  have hascii : P.netloc.all (fun c => decide (c.toNat < 128)) = true := by
    rw [List.all_eq_true]
    intro c hc
    rw [decide_eq_true_eq]
    rcases mem_netloc hc with hname | hother | ⟨hbracket, -⟩
    · exact lt_of_isNameChar hname
    · rcases List.mem_cons.mp hother with rfl | hother
      · decide
      · rw [List.mem_singleton.mp hother]
        decide
    · rw [h] at hbracket
      cases hbracket
  simp only [UrlParse.UrlChecks.accepts, hopen, hclose, hascii]
  rfl

end Netloc

/-! ## Endpoints -/

section Endpoint

variable {a b : Text} {c : Char}

theorem before_append (ha : c ∉ a) (hb : ∀ d, b.head? = some d → d = c) :
    UrlParse.before c (a ++ b) = a := by
  refine takeWhile_append_stop (p := (· == c)) ?_ fun d hd => beq_iff_eq.mpr (hb d hd)
  intro d hd
  rw [beq_eq_false_iff_ne]
  rintro rfl
  exact ha hd

theorem after_append (ha : c ∉ a) : UrlParse.after c (a ++ c :: b) = b := by
  have hdrop := dropWhile_append_stop (p := (· == c)) (a := a) (b := c :: b)
    (by
      intro d hd
      rw [beq_eq_false_iff_ne]
      rintro rfl
      exact ha hd)
    (by
      rintro d ⟨⟩
      exact beq_self_eq_true c)
  exact congrArg (List.drop 1) hdrop

theorem after_of_not_mem (ha : c ∉ a) : UrlParse.after c a = [] := by
  have hnil : a.dropWhile (· != c) = [] := by
    rw [List.dropWhile_eq_nil_iff]
    intro d hd
    rw [bne_iff_ne]
    rintro rfl
    exact ha hd
  rw [UrlParse.after, hnil]
  rfl

theorem afterLast_of_not_mem (hb : c ∉ b) : UrlParse.afterLast c b = b := by
  have htake := before_append (a := b.reverse) (b := []) (c := c) (fun h => hb (List.mem_reverse.mp h))
    (by rintro d ⟨⟩)
  rw [List.append_nil] at htake
  unfold UrlParse.afterLast
  rw [show b.reverse.takeWhile (· != c) = b.reverse from htake, List.reverse_reverse]

theorem afterLast_append (hb : c ∉ b) : UrlParse.afterLast c (a ++ c :: b) = b := by
  have htake := before_append (a := b.reverse) (b := c :: a.reverse) (c := c)
    (fun h => hb (List.mem_reverse.mp h)) (by rintro d ⟨⟩; rfl)
  have hreverse : (a ++ c :: b).reverse = b.reverse ++ c :: a.reverse := by simp
  unfold UrlParse.afterLast
  rw [hreverse, show (b.reverse ++ c :: a.reverse).takeWhile (· != c) = b.reverse from htake,
    List.reverse_reverse]

theorem splitUserinfo_of_not_mem (h : '@' ∉ a) : splitUserinfo a = (none, a) := if_neg h

/-- A host without brackets, and a port. -/
theorem splitPort_plain (hbracket : '[' ∉ a) (ha : ':' ∉ a) :
    splitPort a = (a, none) ∧ splitPort (a ++ ':' :: b) = (a, some b) := by
  have hhead : ∀ {t : Text}, (a ++ ':' :: t).head? ≠ some '[' := by
    intro t h
    cases a with
    | nil => cases h
    | cons d a =>
        obtain rfl := Option.some.inj h
        exact hbracket List.mem_cons_self
  have hhead' : a.head? ≠ some '[' := fun h => hbracket (List.mem_of_mem_head? h)
  have htake : a.takeWhile (· != ':') = a := by
    have := before_append (b := []) ha (by rintro d ⟨⟩)
    rwa [List.append_nil] at this
  have hdrop : a.dropWhile (· != ':') = [] := by
    have := List.takeWhile_append_dropWhile (p := (· != ':')) (l := a)
    rw [htake] at this
    exact List.append_cancel_left (this.trans (List.append_nil a).symm)
  have htake' : (a ++ ':' :: b).takeWhile (· != ':') = a :=
    before_append ha (by rintro d ⟨⟩; rfl)
  have hdrop' : (a ++ ':' :: b).dropWhile (· != ':') = ':' :: b := by
    have := List.takeWhile_append_dropWhile (p := (· != ':')) (l := a ++ ':' :: b)
    rw [htake'] at this
    exact List.append_cancel_left this
  rw [splitPort, splitPort, if_neg hhead', if_neg hhead, htake, hdrop, htake', hdrop']
  exact ⟨rfl, rfl⟩

end Endpoint

section Kept

variable {P : ProfileUrl} {r : UrlParse.ParseResult} {x : Text} {scheme : Option Text}

/-- What the library looks for the host and the port in. -/
theorem afterLast_netloc (hx : ∀ c ∈ x, c = '.') (hr : r.netloc = P.netloc ++ x) :
    UrlParse.afterLast '@' r.netloc = P.hostport ++ x := by
  have hnone : '@' ∉ P.hostport ++ x := by
    rw [List.mem_append, not_or]
    refine ⟨not_mem_hostport, fun h => ?_⟩
    exact absurd (hx _ h) (by decide)
  rw [hr, ProfileUrl.netloc]
  cases P.userinfo with
  | none => exact afterLast_of_not_mem hnone
  | some u =>
      show UrlParse.afterLast '@' (u ++ '@' :: P.hostport ++ x) = _
      rw [List.append_assoc]
      exact afterLast_append hnone

/-- The URL of a request names no user. -/
theorem splitUserinfo_posted (hx : ∀ c ∈ x, c = '.') (hr : r.netloc = P.netloc ++ x)
    (port : Option ℕ) : splitUserinfo (postedAuthority r port) = (none, postedAuthority r port) := by
  refine splitUserinfo_of_not_mem (not_mem_postedAuthority (by decide) (by decide) ?_ port)
  have hnone : '@' ∉ UrlParse.afterLast '@' r.netloc := by
    rw [afterLast_netloc hx hr, List.mem_append, not_or]
    refine ⟨not_mem_hostport, fun h => ?_⟩
    exact absurd (hx _ h) (by decide)
  intro h
  refine hnone ?_
  by_cases hbracket : '[' ∈ UrlParse.afterLast '@' r.netloc
  · rw [hostinfo_bracketed hbracket] at h
    exact mem_of_mem_after (mem_of_mem_before h)
  · rw [hostinfo_plain hbracket] at h
    exact mem_of_mem_before h

section Name

variable {t : Text} {nonempty : t ≠ []} {chars : ∀ c ∈ t, isNameChar c = true}

/-- A name is free of delimiters. -/
theorem not_mem_name (chars : ∀ c ∈ t, isNameChar c = true) {c : Char}
    (hc : isNameChar c = false) : c ∉ t := by
  intro h
  rw [chars c h] at hc
  cases hc

theorem not_mem_netloc_name (hhost : P.host = .name t nonempty chars) (hx : ∀ c ∈ x, c = '.')
    (hr : r.netloc = P.netloc ++ x) : '[' ∉ UrlParse.afterLast '@' r.netloc := by
  rw [afterLast_netloc hx hr]
  intro h
  rcases List.mem_append.mp h with h | h
  · rcases mem_hostport h with h | h | ⟨h, -⟩
    · exact absurd h (by decide)
    · exact absurd h (by decide)
    · rw [hhost] at h
      cases h
  · exact absurd (hx _ h) (by decide)

/-- A name without a port. -/
theorem hostinfo_bare (hhost : P.host = .name t nonempty chars) (hport : P.port = none)
    (hx : ∀ c ∈ x, c = '.') (hr : r.netloc = P.netloc ++ x) : r.hostinfo = (t ++ x, none) := by
  have hcolon : ':' ∉ t ++ x := by
    rw [List.mem_append, not_or]
    refine ⟨not_mem_name chars (by decide), fun h => ?_⟩
    exact absurd (hx _ h) (by decide)
  have hbefore := before_append (b := []) hcolon (by rintro d ⟨⟩)
  rw [List.append_nil] at hbefore
  have htext : P.hostport = t := by
    rw [ProfileUrl.hostport, hhost, hport]
    exact List.append_nil t
  rw [hostinfo_plain (not_mem_netloc_name hhost hx hr), afterLast_netloc hx hr, htext, hbefore,
    after_of_not_mem hcolon, if_pos rfl]

/-- A name with a port. -/
theorem hostinfo_port {p : Text} (hhost : P.host = .name t nonempty chars) (hport : P.port = some p)
    (hx : ∀ c ∈ x, c = '.') (hr : r.netloc = P.netloc ++ x) :
    r.hostinfo = (t, if p ++ x = [] then none else some (p ++ x)) := by
  have hcolon : ':' ∉ t := not_mem_name chars (by decide)
  have htext : P.hostport ++ x = t ++ ':' :: (p ++ x) := by
    rw [ProfileUrl.hostport, hhost, hport]
    show t ++ ':' :: p ++ x = _
    rw [List.append_assoc, List.cons_append]
  rw [hostinfo_plain (not_mem_netloc_name hhost hx hr), afterLast_netloc hx hr, htext,
    before_append hcolon (by rintro d ⟨⟩; rfl), after_append hcolon]

/-- The endpoint of a profile URL with a name. -/
theorem endpoint_name (huser : P.userinfo = none) (hhost : P.host = .name t nonempty chars) :
    endpoint scheme P.netloc = ⟨none, lower t, portNumber scheme P.port⟩ := by
  have hnetloc : P.netloc = P.hostport := by
    rw [ProfileUrl.netloc, huser]
  have hplain : '[' ∉ t ∧ ':' ∉ t :=
    ⟨not_mem_name chars (by decide), not_mem_name chars (by decide)⟩
  have hsplit : splitPort P.hostport = (t, P.port) := by
    rw [ProfileUrl.hostport, hhost]
    cases P.port with
    | none =>
        show splitPort (t ++ []) = _
        rw [List.append_nil]
        exact (splitPort_plain (b := []) hplain.1 hplain.2).1
    | some p => exact (splitPort_plain hplain.1 hplain.2).2
  rw [endpoint, hnetloc, splitUserinfo_of_not_mem not_mem_hostport]
  simp only [hsplit]

end Name

/-- The endpoint of the URL of a request. -/
theorem endpoint_posted (hx : ∀ c ∈ x, c = '.') (hr : r.netloc = P.netloc ++ x)
    (hbracket : '[' ∉ r.hostinfo.1) (hcolon : ':' ∉ r.hostinfo.1) (port : Option ℕ) :
    endpoint scheme (postedAuthority r port) = ⟨none, lower (optionText r.hostname), port⟩ := by
  have hsplit : splitPort (postedAuthority r port) = (optionText r.hostname, some (portPart port)) :=
    (splitPort_plain (not_mem_hostname (by decide) hbracket) (not_mem_hostname (by decide) hcolon)).2
  rw [endpoint, splitUserinfo_posted hx hr]
  simp only [hsplit, portNumber_portPart]

/-- The brackets of an IPv6 address are lost. -/
theorem endpoint_ipv6 {a : Text} {chars : ∀ c ∈ a, (isNameChar c || c == ':') = true}
    (hhost : P.host = .ipv6 a chars) (huser : P.userinfo = none) (hx : ∀ c ∈ x, c = '.')
    (hr : r.netloc = P.netloc ++ x) (port : Option ℕ) :
    endpoint scheme (postedAuthority r port) ≠ endpoint scheme P.netloc := by
  have hfree : ∀ c, isNameChar c = false → c ≠ ':' → c ∉ a := by
    intro c hc hcolon h
    have := chars c h
    rw [hc, Bool.false_or, beq_iff_eq] at this
    exact hcolon this
  obtain ⟨tail, htail⟩ : ∃ tail, P.hostport = '[' :: (a ++ ']' :: tail) := by
    rw [ProfileUrl.hostport, hhost]
    cases P.port with
    | none => exact ⟨[], by simp [Host.text]⟩
    | some p => exact ⟨':' :: p, by simp [Host.text]⟩
  have hlast : UrlParse.afterLast '@' r.netloc = [] ++ '[' :: (a ++ ']' :: (tail ++ x)) := by
    rw [afterLast_netloc hx hr, htail]
    simp
  have hinfo : r.hostinfo.1 = a := by
    rw [hostinfo_bracketed (by rw [hlast]; exact List.mem_cons_self), hlast,
      after_append List.not_mem_nil,
      before_append (hfree ']' (by decide) (by decide)) (by rintro d ⟨⟩; rfl)]
  have hposted : '[' ∉ postedAuthority r port :=
    not_mem_postedAuthority (by decide) (by decide)
      (by rw [hinfo]; exact hfree '[' (by decide) (by decide)) port
  intro h
  have hhosts := congrArg Endpoint.host h
  have hnetloc : P.netloc = P.hostport := by
    rw [ProfileUrl.netloc, huser]
  rw [hnetloc] at hhosts
  simp only [endpoint, splitUserinfo_posted hx hr, splitUserinfo_of_not_mem not_mem_hostport] at hhosts
  have hmem : '[' ∈ (splitPort P.hostport).1 := by
    have hhead : ('[' :: (a ++ ']' :: tail)).head? = some '[' := rfl
    rw [htail, splitPort, if_pos hhead]
    exact List.mem_append_left _ List.mem_cons_self
  have hhead : ¬ (postedAuthority r port).head? = some '[' := fun hhead =>
    hposted (List.mem_of_mem_head? hhead)
  rw [← mem_lower_iff (by decide), ← hhosts, mem_lower_iff (by decide), splitPort,
    if_neg hhead] at hmem
  exact hposted (mem_of_mem_before hmem)

/-- Only a profile URL that names no user keeps its endpoint. -/
theorem userinfo_of_endpoint_eq (hx : ∀ c ∈ x, c = '.') (hr : r.netloc = P.netloc ++ x)
    {port : Option ℕ}
    (h : endpoint scheme (postedAuthority r port) = endpoint scheme P.netloc) :
    P.userinfo = none := by
  have husers := congrArg Endpoint.userinfo h
  simp only [endpoint, splitUserinfo_posted hx hr] at husers
  cases hsome : P.userinfo with
  | none => rfl
  | some u =>
      have hat : '@' ∈ P.netloc := by
        rw [ProfileUrl.netloc, hsome]
        simp
      rw [splitUserinfo, if_pos hat] at husers
      cases husers

section NameKept

variable {t : Text} {nonempty : t ≠ []} {chars : ∀ c ∈ t, isNameChar c = true} {port : Option ℕ}

/-- Without a port the text of the URL has `None` for it. -/
theorem endpoint_bare (hscheme : scheme.bind defaultPort ≠ none)
    (hhost : P.host = .name t nonempty chars) (huser : P.userinfo = none) (hp : P.port = none)
    (hx : ∀ c ∈ x, c = '.') (hr : r.netloc = P.netloc ++ x) (hport : r.port = .ok port) :
    endpoint scheme (postedAuthority r port) ≠ endpoint scheme P.netloc := by
  intro h
  have hplain : ∀ c, isNameChar c = false → c ≠ '.' → c ∉ t ++ x := by
    intro c hc hdot hmem
    rcases List.mem_append.mp hmem with hmem | hmem
    · exact not_mem_name chars hc hmem
    · exact hdot (hx c hmem)
  have hinfo := hostinfo_bare hhost hp hx hr
  rw [UrlParse.ParseResult.port, hinfo] at hport
  obtain rfl := Except.ok.inj hport
  rw [endpoint_posted hx hr (by rw [hinfo]; exact hplain _ (by decide) (by decide))
    (by rw [hinfo]; exact hplain _ (by decide) (by decide)), endpoint_name huser hhost, hp] at h
  exact absurd (congrArg Endpoint.port h).symm hscheme

/-- A port is kept when there are digits, no dot behind them, and their number is a port. -/
theorem port_of_endpoint_eq {p : Text} (hscheme : scheme.bind defaultPort ≠ none)
    (hhost : P.host = .name t nonempty chars) (huser : P.userinfo = none) (hp : P.port = some p)
    (hx : ∀ c ∈ x, c = '.') (hr : r.netloc = P.netloc ++ x) (hport : r.port = .ok port)
    (h : endpoint scheme (postedAuthority r port) = endpoint scheme P.netloc) :
    x = [] ∧ p ≠ [] ∧ UrlParse.ParseResult.intOf p ≤ 65535 := by
  have hinfo := hostinfo_port hhost hp hx hr
  have hname : ∀ c, isNameChar c = false → c ∉ r.hostinfo.1 := by
    rw [hinfo]
    exact fun c hc => not_mem_name chars hc
  rw [endpoint_posted hx hr (hname _ (by decide)) (hname _ (by decide)),
    endpoint_name huser hhost, hp] at h
  have hnumber : port = portNumber scheme (some p) := congrArg Endpoint.port h
  rw [UrlParse.ParseResult.port, hinfo] at hport
  by_cases hnil : p ++ x = []
  · rw [if_pos hnil] at hport
    obtain rfl := Except.ok.inj hport
    rw [(List.append_eq_nil_iff.mp hnil).1, portNumber, if_pos rfl] at hnumber
    exact absurd hnumber.symm hscheme
  · simp only [if_neg hnil] at hport
    by_cases hdigits : (p ++ x).all Char.isDigit = true
    · rw [if_pos hdigits] at hport
      have hxnil : x = [] := by
        rw [List.eq_nil_iff_forall_not_mem]
        intro c hc
        have := List.all_eq_true.mp hdigits c (List.mem_append_right p hc)
        rw [hx c hc] at this
        exact absurd this (by decide)
      subst hxnil
      rw [List.append_nil] at hport hnil
      by_cases hsize : UrlParse.ParseResult.intOf p ≤ 65535
      · exact ⟨rfl, hnil, hsize⟩
      · rw [if_neg hsize] at hport
        cases hport
    · rw [if_neg hdigits] at hport
      cases hport

theorem endpoint_numbered {p : Text} (hhost : P.host = .name t nonempty chars)
    (huser : P.userinfo = none) (hp : P.port = some p) (hne : p ≠ [])
    (hsize : UrlParse.ParseResult.intOf p ≤ 65535) (hr : r.netloc = P.netloc ++ []) :
    r.port = .ok (some (UrlParse.ParseResult.intOf p)) ∧
      endpoint scheme (postedAuthority r (some (UrlParse.ParseResult.intOf p))) =
        endpoint scheme P.netloc := by
  have hx : ∀ c ∈ ([] : Text), c = '.' := fun _ hc => absurd hc List.not_mem_nil
  have hinfo := hostinfo_port hhost hp hx hr
  rw [List.append_nil, if_neg hne] at hinfo
  have hname : ∀ c, isNameChar c = false → c ∉ r.hostinfo.1 := by
    rw [hinfo]
    exact fun c hc => not_mem_name chars hc
  have hdigits := P.digits p hp
  constructor
  · simp only [UrlParse.ParseResult.port, hinfo, hdigits, if_true, if_pos hsize]
  · rw [endpoint_posted hx hr (hname _ (by decide)) (hname _ (by decide)),
      lower_hostname (by rw [hinfo]; exact nonempty), endpoint_name huser hhost, hp, hinfo,
      portNumber, if_neg hne, if_pos hdigits]
    rfl

end NameKept

/-- **The endpoint is kept** exactly when a name and a port are given and nothing is added. -/
theorem endpoint_kept_iff (hscheme : scheme.bind defaultPort ≠ none) (hx : ∀ c ∈ x, c = '.')
    (hr : r.netloc = P.netloc ++ x) :
    (∃ port, r.port = .ok port ∧
      endpoint scheme (postedAuthority r port) = endpoint scheme P.netloc) ↔
      x = [] ∧ P.Numbered := by
  constructor
  · rintro ⟨port, hport, h⟩
    have huser := userinfo_of_endpoint_eq hx hr h
    cases hhost : P.host with
    | ipv6 a chars => exact absurd h (endpoint_ipv6 hhost huser hx hr port)
    | name t nonempty chars =>
        cases hp : P.port with
        | none => exact absurd h (endpoint_bare hscheme hhost huser hp hx hr hport)
        | some p =>
            obtain ⟨hxnil, hne, hsize⟩ := port_of_endpoint_eq hscheme hhost huser hp hx hr hport h
            refine ⟨hxnil, huser, ?_, p, hp, hne, hsize⟩
            rw [hhost]
            rfl
  · rintro ⟨rfl, huser, hisName, p, hp, hne, hsize⟩
    cases hhost : P.host with
    | ipv6 a chars =>
        rw [hhost] at hisName
        cases hisName
    | name t nonempty chars =>
        exact ⟨some (UrlParse.ParseResult.intOf p), endpoint_numbered hhost huser hp hne hsize hr⟩

end Kept

/-! ## Paths -/

/-- The path of the URL of a request. -/
def postedPath (ref : Text) : Text := (UrlParse.splitParams (servicePath ref)).1

/-- What is left of the segments of a path: unsafe characters are removed, and the last
segment loses its parameters. -/
def cut : List Text → List Text
  | [] => []
  | [last] => [UrlParse.before ';' (UrlParse.removeUnsafe last)]
  | seg :: next :: rest => UrlParse.removeUnsafe seg :: cut (next :: rest)

section Paths

variable {segs : List Text} {pre : Text}

theorem length_cut : (cut segs).length = segs.length := by
  induction segs with
  | nil => rfl
  | cons seg segs ih =>
      cases segs with
      | nil => rfl
      | cons next rest =>
          rw [cut, List.length_cons, ih]
          rfl

theorem removeUnsafe_append (a b : Text) :
    UrlParse.removeUnsafe (a ++ b) = UrlParse.removeUnsafe a ++ UrlParse.removeUnsafe b :=
  List.filter_append a b

/-- The segments of a path are cut one by one. -/
theorem cut_append (last : Text) :
    cut (segs ++ [last]) =
      segs.map UrlParse.removeUnsafe ++ [UrlParse.before ';' (UrlParse.removeUnsafe last)] := by
  induction segs with
  | nil => rfl
  | cons seg segs ih =>
      obtain ⟨next, rest, hrest⟩ := List.exists_cons_of_ne_nil
        (List.append_ne_nil_of_right_ne_nil segs (List.cons_ne_nil last []))
      rw [List.cons_append, hrest, cut, ← hrest, ih]
      rfl

theorem noSlash_cut (h : ∀ seg ∈ segs, '/' ∉ seg) : ∀ seg ∈ cut segs, '/' ∉ seg := by
  have hkept : ∀ seg : Text, '/' ∉ seg → '/' ∉ UrlParse.removeUnsafe seg := fun seg hseg hmem =>
    hseg (List.mem_of_mem_filter hmem)
  rcases List.eq_nil_or_concat segs with rfl | ⟨init, last, hconcat⟩
  · exact fun seg hseg => absurd hseg List.not_mem_nil
  · rw [List.concat_eq_append] at hconcat
    subst hconcat
    rw [cut_append]
    intro seg hseg
    rcases List.mem_append.mp hseg with hseg | hseg
    · obtain ⟨seg', hseg', rfl⟩ := List.mem_map.mp hseg
      exact hkept seg' (h seg' (List.mem_append_left _ hseg'))
    · rw [List.mem_singleton.mp hseg]
      exact fun hmem => hkept last (h last (by simp)) (mem_of_mem_before hmem)

/-- Dot segments stay. -/
theorem mem_cut_of_isDot {seg : Text} (hdot : IsDot seg) (h : seg ∈ segs) : seg ∈ cut segs := by
  have hkept : UrlParse.removeUnsafe seg = seg ∧ UrlParse.before ';' seg = seg := by
    rcases hdot with rfl | rfl <;> decide
  rcases List.eq_nil_or_concat segs with rfl | ⟨init, last, hconcat⟩
  · exact absurd h List.not_mem_nil
  · rw [List.concat_eq_append] at hconcat
    subst hconcat
    rw [cut_append]
    rcases List.mem_append.mp h with h | h
    · exact List.mem_append_left _ (List.mem_map.mpr ⟨seg, h, hkept.1⟩)
    · refine List.mem_append_right _ ?_
      rw [List.mem_singleton] at h ⊢
      rw [← h, hkept.1, hkept.2]

theorem removeUnsafe_slashed : UrlParse.removeUnsafe (slashed segs) =
    slashed (segs.map UrlParse.removeUnsafe) := by
  induction segs with
  | nil => rfl
  | cons seg segs ih =>
      have hslash : UrlParse.removeUnsafe ('/' :: seg) = '/' :: UrlParse.removeUnsafe seg := rfl
      rw [slashed_cons, removeUnsafe_append, hslash, ih, List.map_cons, slashed_cons]

theorem splitParams_slashed {last : Text} (hlast : '/' ∉ last) :
    (UrlParse.splitParams (slashed (segs ++ [last]))).1 =
      slashed (segs ++ [UrlParse.before ';' last]) := by
  have htext : ∀ t : Text, slashed (segs ++ [t]) = slashed segs ++ '/' :: t := by
    intro t
    rw [slashed_append, slashed_cons]
    exact congrArg _ (List.append_nil _)
  have hfront : (slashed segs ++ '/' :: last).take
      ((slashed segs ++ '/' :: last).length - last.length) = slashed segs ++ ['/'] := by
    have hassoc : slashed segs ++ '/' :: last = slashed segs ++ ['/'] ++ last := by simp
    rw [hassoc, List.length_append, Nat.add_sub_cancel, List.take_left]
  rw [htext, htext, UrlParse.splitParams, afterLast_append hlast]
  show List.take _ _ ++ UrlParse.before ';' last = _
  rw [hfront, List.append_assoc]
  rfl

/-- **The path of the URL of a request**, from a reference whose path begins after `pre`. -/
theorem postedPath_slashed (hpre : ∀ c ∈ pre, endsAuthority c = false)
    (hsegs : ∀ seg ∈ segs, '/' ∉ seg) (hpath : ∀ c ∈ slashed segs, endsPath c = false) :
    postedPath (pre ++ slashed segs) = slashed (cut segs) := by
  have hpre' : ∀ c ∈ UrlParse.removeUnsafe pre, endsAuthority c = false := fun c hc =>
    hpre c (List.mem_of_mem_filter hc)
  have hhead : ∀ c, (UrlParse.removeUnsafe (slashed segs)).head? = some c → endsAuthority c = true := by
    intro c hc
    rw [removeUnsafe_slashed] at hc
    cases segs with
    | nil => cases hc
    | cons seg segs =>
        cases hc
        rfl
  have hall : ∀ c ∈ UrlParse.removeUnsafe (slashed segs), endsPath c = false := fun c hc =>
    hpath c (List.mem_of_mem_filter hc)
  have htake := takeWhile_append_stop (p := endsPath) (b := []) hall (by rintro c ⟨⟩)
  rw [List.append_nil] at htake
  rw [postedPath, servicePath, removeUnsafe_append, dropWhile_append_stop hpre' hhead, htake,
    removeUnsafe_slashed]
  rcases List.eq_nil_or_concat segs with rfl | ⟨init, last, hconcat⟩
  · rfl
  · rw [List.concat_eq_append] at hconcat
    subst hconcat
    have hlast : '/' ∉ UrlParse.removeUnsafe last := fun h =>
      hsegs last (by simp) (List.mem_of_mem_filter h)
    rw [cut_append, List.map_append, List.map_singleton, splitParams_slashed hlast]

/-- The authority such a reference adds to. -/
theorem appended_slashed (hpre : ∀ c ∈ pre, endsAuthority c = false) :
    appended (pre ++ slashed segs) = UrlParse.removeUnsafe pre := by
  rw [appended, removeUnsafe_append, removeUnsafe_slashed]
  refine takeWhile_append_stop (fun c hc => hpre c (List.mem_of_mem_filter hc)) fun c hc => ?_
  cases segs with
  | nil => cases hc
  | cons seg segs =>
      cases hc
      rfl

/-- What is kept of the segments has nothing left to be removed. -/
theorem kept_cut {seg : Text} {c : Char} (hseg : seg ∈ cut segs) (hc : c ∈ seg) :
    c ∉ UrlParse.unsafeChars := by
  have hkept : ∀ s : Text, c ∈ UrlParse.removeUnsafe s → c ∉ UrlParse.unsafeChars := by
    intro s hs
    simpa using (List.mem_filter.mp hs).2
  rcases List.eq_nil_or_concat segs with rfl | ⟨init, last, hconcat⟩
  · exact absurd hseg List.not_mem_nil
  · rw [List.concat_eq_append] at hconcat
    subst hconcat
    rw [cut_append] at hseg
    rcases List.mem_append.mp hseg with hseg | hseg
    · obtain ⟨s, -, rfl⟩ := List.mem_map.mp hseg
      exact hkept s hc
    · rw [List.mem_singleton.mp hseg] at hc
      exact hkept last (mem_of_mem_before hc)

/-- **Segments are left alone** when there is nothing to remove and no parameter at the end. -/
theorem cut_eq_self_iff (last : Text) : cut (segs ++ [last]) = segs ++ [last] ↔
    (∀ seg ∈ segs ++ [last], ∀ c ∈ seg, c ∉ UrlParse.unsafeChars) ∧ ';' ∉ last := by
  constructor
  · intro h
    refine ⟨fun seg hseg c hc => kept_cut (by rw [h]; exact hseg) hc, fun hmem => ?_⟩
    rw [cut_append] at h
    have hlast := congrArg List.getLast? h
    rw [List.getLast?_append_of_ne_nil _ (List.cons_ne_nil _ _),
      List.getLast?_append_of_ne_nil _ (List.cons_ne_nil _ _), List.getLast?_singleton,
      List.getLast?_singleton, Option.some.injEq] at hlast
    rw [← hlast] at hmem
    exact absurd (mem_takeWhile_not (p := (· == ';')) hmem) (by decide)
  · rintro ⟨hkept, hparams⟩
    have hfilter : ∀ seg ∈ segs ++ [last], UrlParse.removeUnsafe seg = seg := fun seg hseg =>
      List.filter_eq_self.mpr fun c hc => decide_eq_true (hkept seg hseg c hc)
    have hbefore := before_append (b := []) hparams (by rintro d ⟨⟩)
    rw [List.append_nil] at hbefore
    have hmap : segs.map UrlParse.removeUnsafe = segs.map id :=
      List.map_congr_left fun seg hseg => hfilter seg (List.mem_append_left _ hseg)
    rw [cut_append, hmap, List.map_id, hfilter last (by simp), hbefore]

/-- The path is a prefix of what the library takes for one. -/
theorem prefix_servicePath (ref : Text) : postedPath ref <+: servicePath ref := by
  unfold postedPath UrlParse.splitParams
  obtain ⟨front, hfront⟩ : UrlParse.afterLast '/' (servicePath ref) <:+ servicePath ref := by
    rw [UrlParse.afterLast, ← List.reverse_prefix, List.reverse_reverse]
    exact List.takeWhile_prefix _
  have htake : (servicePath ref).take
      ((servicePath ref).length - (UrlParse.afterLast '/' (servicePath ref)).length) = front := by
    have hlen := congrArg List.length hfront
    rw [List.length_append] at hlen
    rw [← hlen, Nat.add_sub_cancel]
    exact (List.prefix_iff_eq_take.mp ⟨_, hfront⟩).symm
  obtain ⟨tail, htail⟩ :=
    List.takeWhile_prefix (· != ';') (l := UrlParse.afterLast '/' (servicePath ref))
  refine ⟨tail, ?_⟩
  show List.take _ _ ++ UrlParse.before ';' _ ++ tail = _
  rw [htake, List.append_assoc, UrlParse.before, htail, hfront]

/-- It begins with a slash, unless it is empty. -/
theorem head_postedPath {ref : Text} {c : Char} (h : (postedPath ref).head? = some c) : c = '/' := by
  obtain ⟨tail, htail⟩ := prefix_servicePath ref
  have hservice : (servicePath ref).head? = some c := by
    rw [← htail, List.head?_append, h]
    rfl
  unfold servicePath at hservice
  have hpath : endsPath c = false := mem_takeWhile_not (List.mem_of_mem_head? hservice)
  have hauthority : endsAuthority c = true := by
    refine head_dropWhile (s := UrlParse.removeUnsafe ref) c ?_
    rw [← List.takeWhile_append_dropWhile (p := (!endsPath ·))
      (l := (UrlParse.removeUnsafe ref).dropWhile (!endsAuthority ·)), List.head?_append, hservice]
    rfl
  unfold endsAuthority at hauthority
  unfold endsPath at hpath
  rw [Bool.or_assoc, hpath, Bool.or_false, beq_iff_eq] at hauthority
  exact hauthority

/-- Nothing stands before an absolute path. -/
theorem postedPath_rooted (hsegs : ∀ seg ∈ segs, '/' ∉ seg)
    (hpath : ∀ c ∈ slashed segs, endsPath c = false) :
    postedPath (slashed segs) = slashed (cut segs) := by
  have hpre : ∀ c ∈ ([] : Text), endsAuthority c = false := fun _ hc => absurd hc List.not_mem_nil
  exact postedPath_slashed hpre hsegs hpath

theorem slashed_injective {segs' : List Text} (hsegs : ∀ seg ∈ segs, '/' ∉ seg)
    (hsegs' : ∀ seg ∈ segs', '/' ∉ seg) (h : slashed segs = slashed segs') : segs = segs' := by
  have hsplit := splitOn_slashed List.not_mem_nil hsegs
  have hsplit' := splitOn_slashed List.not_mem_nil hsegs'
  rw [List.nil_append] at hsplit hsplit'
  rw [h, hsplit'] at hsplit
  exact (List.cons.inj hsplit).2.symm

end Paths

/-! ## What is asked for, and what is resolved -/

section Resolved

variable {P : ProfileUrl} {checks : UrlParse.UrlChecks} {R u : Text}

/-- What the library takes for the authority of the profile URL. -/
theorem appended_of_rooted {ref : Text} (h : ∀ c, ref.head? = some c → endsAuthority c = true) :
    appended ref = [] := by
  cases ref with
  | nil => rfl
  | cons c ref =>
      have hc := h c rfl
      have hkept : c ∉ UrlParse.unsafeChars := by
        intro hmem
        have hall : UrlParse.unsafeChars.all (!endsAuthority ·) = true := by decide
        have := List.all_eq_true.mp hall c hmem
        rw [hc] at this
        cases this
      have hcons : UrlParse.removeUnsafe (c :: ref) = c :: UrlParse.removeUnsafe ref :=
        List.filter_cons_of_pos (decide_eq_true hkept)
      rw [appended, hcons]
      exact List.takeWhile_cons_of_neg (by rw [hc]; decide)

/-- The library's parts of the profile URL. -/
theorem urlparse_text (P : ProfileUrl) (checks : UrlParse.UrlChecks) :
    ∃ parsed, parsed.scheme = lower P.scheme ∧ parsed.netloc = P.netloc ∧
      UrlParse.urlparse checks P.text =
        if checks.accepts P.netloc then .ok parsed else .error .valueError := by
  obtain ⟨params, query, fragment, h⟩ := urlparse_service checks P.http plain_netloc P.rest
  rw [appended_of_rooted P.rooted, List.append_nil] at h
  exact ⟨_, rfl, rfl, h⟩

/-- The components of the profile URL. -/
theorem parse_text (P : ProfileUrl) :
    parse P.text = parseRest (some P.scheme) (some P.netloc) P.rest := by
  have h := parse_hierarchical (ne_nil_of_isHttp P.http) (endsScheme_of_isHttp P.http)
    (plain_netloc (P := P)).undelimited P.rooted
  rw [← h]
  have hslashes : "://".toList = [':', '/', '/'] := rfl
  rw [ProfileUrl.text, hslashes]
  simp only [List.append_assoc, List.cons_append, List.nil_append]

/-- **The URL of a request**: `r` is what the library makes of the service URL. -/
theorem requestUrl_eq (checks : UrlParse.UrlChecks) (R : Text) {parsed : UrlParse.ParseResult}
    (hscheme : parsed.scheme = lower P.scheme)
    (hnetloc : parsed.netloc = P.netloc) :
    ∃ r : UrlParse.ParseResult, r.scheme = lower P.scheme ∧ r.netloc = P.netloc ++ appended R ∧
      r.path = postedPath R ∧
      Gateway.requestUrl checks parsed R = urlResult
        (if checks.accepts (P.netloc ++ appended R) then SoapTransport.fullUrl r
        else .error .valueError) := by
  obtain ⟨params, query, fragment, h⟩ :=
    urlparse_service checks (isHttp_lower P.http) plain_netloc R
  rw [lower_lower] at h
  refine ⟨⟨lower P.scheme, P.netloc ++ appended R, postedPath R, params, query, fragment⟩,
    rfl, rfl, rfl, ?_⟩
  rw [Gateway.requestUrl, RouterPortManager.serviceUrl, hscheme, hnetloc, h]
  by_cases haccepts : checks.accepts (P.netloc ++ appended R) = true
  · rw [if_pos haccepts, if_pos haccepts]
    rfl
  · rw [if_neg haccepts, if_neg haccepts]
    rfl

/-- The URL the gateway at `P` is sent a request at, when its control URL is `R`. -/
def serviceRequestUrl (checks : UrlParse.UrlChecks) (P : ProfileUrl) (R : Text) :
    Except RouterExn Text := do
  let parsed ← urlResult (UrlParse.urlparse checks P.text)
  Gateway.requestUrl checks parsed R

/-- **The URL is the resolution** of the control URL against the profile URL: scheme, endpoint,
path, query and fragment are the same. -/
def ResolvesTo (P : ProfileUrl) (R u : Text) : Prop :=
  address (parse u) = address (resolve (parse P.text) (parse R))

instance (P : ProfileUrl) (R u : Text) : Decidable (ResolvesTo P R u) :=
  inferInstanceAs (Decidable (_ = _))

/-- An absolute path that goes through the library as it is: there is no query and no
fragment, no dot segment, no parameter in the last segment and nothing to be removed. -/
structure AbsolutePath (R : Text) : Prop where
  rooted : R.head? = some '/'
  noAuthority : R.take 2 ≠ ['/', '/']
  path : ∀ c ∈ R, endsPath c = false
  kept : ∀ c ∈ R, c ∉ UrlParse.unsafeChars
  dotFree : DotFree R
  noParams : ';' ∉ UrlParse.afterLast '/' R

/-- **The profile URLs and control URLs that are resolved**: the profile URL gives a name and a
port, and the control URL is such a path, or empty where the profile URL has neither a path
nor a query. -/
def Resolved (P : ProfileUrl) (R : Text) : Prop :=
  P.Numbered ∧ (AbsolutePath R ∨ R = [] ∧ ∀ c, P.rest.head? = some c → c = '#')

/-- What is sent, component by component. -/
theorem parse_serviceRequestUrl (h : serviceRequestUrl checks P R = .ok u) :
    ∃ (r : UrlParse.ParseResult) (port : Option ℕ), r.netloc = P.netloc ++ appended R ∧
      r.port = .ok port ∧
      parse u = ⟨some (lower P.scheme), some (postedAuthority r port), postedPath R, none, none⟩ := by
  obtain ⟨parsed, hscheme, hnetloc, hparse⟩ := urlparse_text P checks
  rw [serviceRequestUrl, hparse] at h
  by_cases haccepts : checks.accepts P.netloc = true
  · rw [if_pos haccepts] at h
    obtain ⟨r, hrscheme, hrnetloc, hrpath, hrequest⟩ :=
      requestUrl_eq checks R hscheme hnetloc
    change Gateway.requestUrl checks parsed R = _ at h
    rw [hrequest] at h
    by_cases haccepts' : checks.accepts (P.netloc ++ appended R) = true
    · rw [if_pos haccepts'] at h
      have hfull : SoapTransport.fullUrl r = .ok u := by
        cases hr : SoapTransport.fullUrl r with
        | ok v =>
            rw [hr] at h
            exact congrArg Except.ok (Except.ok.inj h)
        | error e =>
            rw [hr] at h
            cases h
      have hnetlocs : ∀ c ∈ r.netloc, endsAuthority c = false := by
        intro c hc
        rw [hrnetloc] at hc
        rcases List.mem_append.mp hc with hc | hc
        · exact plain_netloc.undelimited c hc
        · exact mem_takeWhile_not hc
      have hpaths : ∀ c ∈ r.path, endsPath c = false := by
        intro c hc
        rw [hrpath] at hc
        exact mem_takeWhile_not ((prefix_servicePath R).subset hc)
      have hroot : ∀ c, r.path.head? = some c → c = '/' := by
        intro c hc
        rw [hrpath] at hc
        exact head_postedPath hc
      obtain ⟨port, hport, hu⟩ := parse_fullUrl (by rw [hrscheme]; exact isHttp_lower P.http)
        hnetlocs hpaths hroot hfull
      rw [hrscheme, hrpath] at hu
      exact ⟨r, port, hrnetloc, hport, hu⟩
    · rw [if_neg haccepts'] at h
      cases h
  · rw [if_neg haccepts] at h
    cases h

theorem exists_slashed_or_nil {path : Text} (h : path = [] ∨ path.head? = some '/') :
    ∃ segs, path = slashed segs ∧ ∀ seg ∈ segs, '/' ∉ seg := by
  rcases h with rfl | h
  · exact ⟨[], rfl, fun _ h => absurd h List.not_mem_nil⟩
  · obtain ⟨segs, hpath, -, hsegs⟩ := exists_slashed h
    exact ⟨segs, hpath, hsegs⟩

/-- A reference with an authority is not followed: its two slashes stay in the path. -/
theorem postedPath_ne {pre a path : Text} (hpre : ∀ c ∈ pre, endsAuthority c = false)
    (ha : ∀ c ∈ a, endsAuthority c = false) (hpath : ∀ c ∈ path, endsPath c = false)
    (hroot : path = [] ∨ path.head? = some '/') :
    postedPath (pre ++ '/' :: '/' :: (a ++ path)) ≠ removeDotSegments path := by
  obtain ⟨-, hcount⟩ := removeDotSegments_spec hroot
  obtain ⟨segs, rfl, hsegs⟩ := exists_slashed_or_nil hroot
  have hbody : '/' :: '/' :: (a ++ slashed segs) = slashed ([] :: a :: segs) := rfl
  have hall : ∀ seg ∈ [] :: a :: segs, '/' ∉ seg := by
    rw [List.forall_mem_cons, List.forall_mem_cons]
    exact ⟨List.not_mem_nil, fun h => absurd (ha _ h) (by decide), hsegs⟩
  have hchars : ∀ c ∈ slashed ([] :: a :: segs), endsPath c = false := by
    rw [← hbody]
    intro c hc
    rcases List.mem_cons.mp hc with rfl | hc
    · rfl
    · rcases List.mem_cons.mp hc with rfl | hc
      · rfl
      · rcases List.mem_append.mp hc with hc | hc
        · have := ha c hc
          unfold endsAuthority at this
          rw [Bool.or_assoc, Bool.or_eq_false_iff] at this
          exact this.2
        · exact hpath c hc
  intro h
  rw [hbody, postedPath_slashed hpre hall hchars] at h
  rw [← h, count_slashed (noSlash_cut hall), length_cut, count_slashed hsegs] at hcount
  simp only [List.length_cons] at hcount
  omega

/-- The profile URL has neither a path nor a query. -/
theorem rest_iff : (parse P.text).path = [] ∧ (parse P.text).query = none ↔
    ∀ c, P.rest.head? = some c → c = '#' := by
  rw [parse_text]
  show P.rest.takeWhile (!endsPath ·) = [] ∧
    (splitQuery (P.rest.dropWhile (!endsPath ·))).1 = none ↔ _
  cases hrest : P.rest with
  | nil => simp [splitQuery]
  | cons c rest =>
      have hc := P.rooted c (by rw [hrest]; rfl)
      unfold endsAuthority at hc
      simp only [Bool.or_eq_true, beq_iff_eq] at hc
      rcases hc with (rfl | rfl) | rfl
      · simp [endsPath]
      · simp [endsPath, splitQuery]
      · simp [endsPath, splitQuery]

theorem defaultPort_ne_none (P : ProfileUrl) : (some (lower P.scheme)).bind defaultPort ≠ none := by
  rcases P.http with h | h
  · rw [h]
    decide
  · rw [h]
    decide

/-- A rooted reference that comes through. -/
theorem absolutePath_of_eq {R : Text} (hscheme : (parse R).scheme = none)
    (hauthority : (parse R).authority = none) (hpath : (parse R).path = R)
    (hroot : R.head? = some '/') (h : postedPath R = removeDotSegments R) : AbsolutePath R := by
  have hchars : ∀ c ∈ R, endsPath c = false := by
    intro c hc
    rw [← hpath] at hc
    exact endsPath_of_mem hc
  have hfree : DotFree (removeDotSegments R) := (removeDotSegments_spec (.inr hroot)).1
  have htake := take_two_ne hscheme hauthority
  obtain ⟨segs, rfl, hne, hsegs⟩ := exists_slashed hroot
  have hcut := postedPath_rooted hsegs hchars
  -- dot segments would have stayed
  have hdots : DotFree (slashed segs) := by
    rw [← h, hcut, dotFree_slashed (noSlash_cut hsegs)] at hfree
    rw [dotFree_slashed hsegs]
    exact fun seg hseg hdot => hfree seg (mem_cut_of_isDot hdot hseg) hdot
  rw [removeDotSegments_of_plain (.inr hroot) hdots, hcut] at h
  have hself := slashed_injective (noSlash_cut hsegs) hsegs h
  obtain ⟨init, last, hconcat⟩ := (List.eq_nil_or_concat segs).resolve_left hne
  rw [List.concat_eq_append] at hconcat
  subst hconcat
  obtain ⟨hkept, hparams⟩ := (cut_eq_self_iff last).mp hself
  refine ⟨hroot, htake, hchars, ?_, hdots, ?_⟩
  · intro c hc
    obtain ⟨part, hpart, hmem⟩ := List.mem_flatten.mp hc
    obtain ⟨seg, hseg, rfl⟩ := List.mem_map.mp hpart
    rcases List.mem_cons.mp hmem with rfl | hmem
    · decide
    · exact hkept seg hseg c hmem
  · rw [slashed_append, slashed_cons]
    show ';' ∉ UrlParse.afterLast '/' (slashed init ++ '/' :: (last ++ []))
    rw [List.append_nil, afterLast_append (hsegs last (by simp))]
    exact hparams

/-- A relative reference does not come through: the endpoint changes, or a segment is lost. -/
theorem not_relative {first : Text} {segs : List Text} {r : UrlParse.ParseResult} {port : Option ℕ}
    (hfirst : '/' ∉ first) (hne : first ≠ []) (hsegs : ∀ seg ∈ segs, '/' ∉ seg)
    (hchars : ∀ c ∈ first ++ slashed segs, endsPath c = false)
    (hnetloc : r.netloc = P.netloc ++ appended (first ++ slashed segs)) (hport : r.port = .ok port)
    (hendpoint : endpoint (some (lower P.scheme)) (postedAuthority r port) =
      endpoint (some (lower P.scheme)) P.netloc) :
    postedPath (first ++ slashed segs) ≠
      removeDotSegments (merge (parse P.text) (first ++ slashed segs)) := by
  have hpre : ∀ c ∈ first, endsAuthority c = false := by
    intro c hc
    have := hchars c (List.mem_append_left _ hc)
    unfold endsPath at this
    unfold endsAuthority
    rw [Bool.or_assoc, this, Bool.or_false, beq_eq_false_iff_ne]
    rintro rfl
    exact hfirst hc
  have hbase : (parse P.text).authority.isSome ∧
      ((parse P.text).path = [] ∨ (parse P.text).path.head? = some '/') := by
    have hauthority : (parse P.text).authority = some P.netloc := by
      rw [parse_text]
      rfl
    exact ⟨by rw [hauthority]; rfl, path_rooted hauthority⟩
  intro h
  obtain ⟨pre, hpres, hmerge⟩ := merge_slashed hbase.1 hbase.2 first segs
  have hall : ∀ seg ∈ first :: segs, '/' ∉ seg := List.forall_mem_cons.mpr ⟨hfirst, hsegs⟩
  have hroot : (slashed (pre ++ first :: segs)).head? = some '/' := by
    cases pre with
    | nil => rfl
    | cons seg pre => rfl
  obtain ⟨hfree, -⟩ := removeDotSegments_spec (.inr hroot)
  rw [hmerge] at h
  rw [← h, postedPath_slashed hpre hsegs fun c hc => hchars c (List.mem_append_right _ hc)] at hfree
  have hplain : ∀ seg ∈ segs, ¬ IsDot seg := by
    rw [dotFree_slashed (noSlash_cut hsegs)] at hfree
    exact fun seg hseg hdot => hfree seg (mem_cut_of_isDot hdot hseg) hdot
  by_cases hdot : IsDot first
  · -- the dots end up in the authority
    have hdots : ∀ c ∈ first, c = '.' := by
      rcases hdot with rfl | rfl <;> simp
    have hkept : UrlParse.removeUnsafe first = first := by
      rcases hdot with rfl | rfl <;> decide
    rw [appended_slashed hpre, hkept] at hnetloc
    exact hne ((endpoint_kept_iff (defaultPort_ne_none P) hdots hnetloc).mp ⟨port, hport, hendpoint⟩).1
  · have hlen := length_le_count pre hpres hall (List.cons_ne_nil _ _)
      (List.forall_mem_cons.mpr ⟨hdot, hplain⟩)
    rw [← h, postedPath_slashed hpre hsegs fun c hc => hchars c (List.mem_append_right _ hc),
      count_slashed (noSlash_cut hsegs), length_cut, List.length_cons] at hlen
    omega

/-- A reference with an authority is resolved to its own path, which the URL does not have. -/
theorem postedPath_ne_of_authority {a : Text} (ha : (parse R).authority = some a)
    (hquery : none = (parse R).query) (hfragment : none = (parse R).fragment) :
    postedPath R ≠ removeDotSegments (parse R).path := by
  have hpre : ∀ c ∈ schemeText (parse R).scheme, endsAuthority c = false := by
    intro c hc
    cases hs : (parse R).scheme with
    | none =>
        rw [hs] at hc
        cases hc
    | some s =>
        rw [hs] at hc
        rcases List.mem_append.mp hc with hc | hc
        · have := endsScheme_of_mem hs hc
          unfold endsScheme at this
          unfold endsAuthority
          rw [Bool.or_assoc, Bool.or_assoc, Bool.or_eq_false_iff] at this
          rw [Bool.or_assoc]
          exact this.2
        · rw [List.mem_singleton.mp hc]
          rfl
  have hR : R = schemeText (parse R).scheme ++ '/' :: '/' :: (a ++ (parse R).path) := by
    have hcompose := compose_parse R
    rw [compose, ha, ← hquery, ← hfragment] at hcompose
    refine hcompose.symm.trans ?_
    simp [authorityText, queryText, fragmentText]
  have hne := postedPath_ne hpre (fun _ hc => endsAuthority_of_mem ha hc)
    (fun _ hc => endsPath_of_mem hc) (path_rooted ha)
  rwa [← hR] at hne

/-- **Only these are resolved.** -/
theorem resolved_of_resolvesTo (hrequest : serviceRequestUrl checks P R = .ok u)
    (h : ResolvesTo P R u) : Resolved P R := by
  obtain ⟨r, port, hnetloc, hport, hparse⟩ := parse_serviceRequestUrl hrequest
  unfold ResolvesTo at h
  rw [hparse] at h
  have hbase := parse_text P
  have hbscheme : (parse P.text).scheme = some P.scheme := by
    rw [hbase]
    rfl
  have hbauthority : (parse P.text).authority = some P.netloc := by
    rw [hbase]
    rfl
  have hpath : postedPath R = (resolve (parse P.text) (parse R)).path := congrArg Address.path h
  have hquery : none = (resolve (parse P.text) (parse R)).query := congrArg Address.query h
  have hfragment : none = (resolve (parse P.text) (parse R)).fragment := congrArg Address.fragment h
  have hendpoint : some (endpoint (some (lower (lower P.scheme))) (postedAuthority r port)) = _ :=
    congrArg Address.endpoint h
  have hcompose := compose_parse R
  unfold resolve at hpath hquery hfragment hendpoint
  simp only [address] at hendpoint
  cases hs : (parse R).scheme with
  | some s =>
      rw [hs] at hpath hquery hfragment hendpoint
      simp only at hpath hquery hfragment hendpoint
      cases ha : (parse R).authority with
      | none =>
          rw [ha] at hendpoint
          cases hendpoint
      | some a => exact absurd hpath (postedPath_ne_of_authority ha hquery hfragment)
  | none =>
      rw [hs] at hpath hquery hfragment hendpoint
      simp only at hpath hquery hfragment hendpoint
      cases ha : (parse R).authority with
      | some a =>
          rw [ha] at hpath hquery hfragment
          exact absurd hpath (postedPath_ne_of_authority ha hquery hfragment)
      | none =>
          rw [ha] at hpath hquery hfragment hendpoint
          simp only [hbscheme, hbauthority, lower_lower, Option.map_some,
            Option.some.injEq] at hpath hquery hfragment hendpoint
          by_cases hnil : (parse R).path = []
          · rw [if_pos hnil] at hpath hquery
            cases hq : (parse R).query with
            | some q =>
                rw [hq] at hquery
                cases hquery
            | none =>
                have hR : R = [] := by
                  rw [compose, hs, ha, hnil, hq, ← hfragment] at hcompose
                  exact hcompose.symm
                rw [hR] at hpath hnetloc
                rw [hq] at hquery
                obtain ⟨-, hnumbered⟩ := (endpoint_kept_iff (defaultPort_ne_none P)
                  (x := []) (by simp) hnetloc).mp ⟨port, hport, hendpoint⟩
                exact ⟨hnumbered, .inr ⟨hR, rest_iff.mp ⟨hpath.symm, hquery.symm⟩⟩⟩
          · rw [if_neg hnil] at hpath hquery
            have hR : (parse R).path = R := by
              rw [compose, hs, ha, ← hquery, ← hfragment] at hcompose
              refine Eq.trans ?_ hcompose
              simp [schemeText, authorityText, queryText, fragmentText]
            rw [hR] at hpath hnil
            by_cases hroot : R.head? = some '/'
            · rw [if_pos hroot] at hpath
              have happended : appended R = [] := appended_of_rooted fun c hc => by
                rw [hroot, Option.some.injEq] at hc
                rw [← hc]
                rfl
              rw [happended] at hnetloc
              obtain ⟨-, hnumbered⟩ := (endpoint_kept_iff (defaultPort_ne_none P)
                (x := []) (by simp) hnetloc).mp ⟨port, hport, hendpoint⟩
              exact ⟨hnumbered, .inl (absolutePath_of_eq hs ha hR hroot hpath)⟩
            · rw [if_neg hroot] at hpath
              have hchars : ∀ c ∈ R, endsPath c = false := by
                intro c hc
                rw [← hR] at hc
                exact endsPath_of_mem hc
              obtain ⟨first, segs, rfl, hfirst, hsegs⟩ := exists_segments R
              refine absurd hpath (not_relative hfirst ?_ hsegs hchars hnetloc hport hendpoint)
              rintro rfl
              cases segs with
              | nil => exact hnil rfl
              | cons seg segs => exact hroot rfl

/-- The components of an absolute path. -/
theorem parse_absolutePath (h : AbsolutePath R) : parse R = ⟨none, none, R, none, none⟩ := by
  have hscheme : splitScheme R = (none, R) := by
    obtain ⟨c, rest, rfl⟩ : ∃ c rest, R = c :: rest := by
      cases R with
      | nil => cases h.rooted
      | cons c rest => exact ⟨c, rest, rfl⟩
    obtain rfl := Option.some.inj h.rooted
    rfl
  have hauthority : splitAuthority R = (none, R) := by
    unfold splitAuthority
    split
    · next rest => exact absurd rfl h.noAuthority
    · rfl
  have htake := takeWhile_append_stop (p := endsPath) (b := []) h.path (by rintro c ⟨⟩)
  have hdrop := dropWhile_append_stop (p := endsPath) (b := []) h.path (by rintro c ⟨⟩)
  rw [List.append_nil] at htake hdrop
  simp only [parse, hscheme, hauthority, htake, hdrop]
  rfl

/-- It is the path of the URL that is posted to. -/
theorem postedPath_absolutePath (h : AbsolutePath R) : postedPath R = R := by
  obtain ⟨segs, rfl, hne, hsegs⟩ := exists_slashed h.rooted
  obtain ⟨init, last, hconcat⟩ := (List.eq_nil_or_concat segs).resolve_left hne
  rw [List.concat_eq_append] at hconcat
  subst hconcat
  have hparams := h.noParams
  rw [slashed_append, slashed_cons] at hparams
  change ';' ∉ UrlParse.afterLast '/' (slashed init ++ '/' :: (last ++ [])) at hparams
  rw [List.append_nil, afterLast_append (hsegs last (by simp))] at hparams
  have hkept : ∀ seg ∈ init ++ [last], ∀ c ∈ seg, c ∉ UrlParse.unsafeChars := by
    intro seg hseg c hc
    refine h.kept c (List.mem_flatten.mpr ⟨'/' :: seg, List.mem_map.mpr ⟨seg, hseg, rfl⟩, ?_⟩)
    exact List.mem_cons_of_mem _ hc
  rw [postedPath_rooted hsegs h.path, (cut_eq_self_iff last).mpr ⟨hkept, hparams⟩]

/-- **These are resolved.** -/
theorem resolvesTo_of_resolved (checks : UrlParse.UrlChecks) (h : Resolved P R) :
    ∃ u, serviceRequestUrl checks P R = .ok u ∧ ResolvesTo P R u := by
  obtain ⟨hnumbered, hR⟩ := h
  have happended : appended R = [] := by
    rcases hR with habsolute | ⟨rfl, -⟩
    · exact appended_of_rooted fun c hc => by
        rw [habsolute.rooted, Option.some.injEq] at hc
        rw [← hc]
        rfl
    · rfl
  have haccepts := accepts_netloc checks hnumbered.2.1
  obtain ⟨parsed, hscheme, hnetloc, hparse⟩ := urlparse_text P checks
  obtain ⟨r, hrscheme, hrnetloc, hrpath, hrequest⟩ :=
    requestUrl_eq checks R hscheme hnetloc
  rw [if_pos haccepts] at hparse
  rw [happended] at hrnetloc hrequest
  rw [List.append_nil, if_pos haccepts] at hrequest
  obtain ⟨u, hurl⟩ : ∃ u, serviceRequestUrl checks P R = .ok u := by
    obtain ⟨port, hport, -⟩ :=
      (endpoint_kept_iff (defaultPort_ne_none P) (by simp) hrnetloc).mpr ⟨rfl, hnumbered⟩
    rw [serviceRequestUrl, hparse]
    change ∃ u, Gateway.requestUrl checks parsed R = .ok u
    rw [hrequest, SoapTransport.fullUrl, hport]
    exact ⟨_, rfl⟩
  refine ⟨u, hurl, ?_⟩
  obtain ⟨r', port, hnetloc', hport, hposted⟩ := parse_serviceRequestUrl hurl
  rw [happended] at hnetloc'
  have hendpoint : endpoint (some (lower P.scheme)) (postedAuthority r' port) =
      endpoint (some (lower P.scheme)) P.netloc := by
    obtain ⟨port', hport', h⟩ :=
      (endpoint_kept_iff (defaultPort_ne_none P) (by simp) hnetloc').mpr ⟨rfl, hnumbered⟩
    rw [hport, Except.ok.injEq] at hport'
    rw [hport', h]
  have hresolved : resolve (parse P.text) (parse R) =
      ⟨some P.scheme, some P.netloc, R, none, none⟩ := by
    rcases hR with habsolute | ⟨rfl, hrest⟩
    · have hne : R ≠ [] := by
        rintro rfl
        exact absurd habsolute.rooted (by simp)
      rw [parse_absolutePath habsolute, parse_text]
      simp only [resolve, if_neg hne, if_pos habsolute.rooted,
        removeDotSegments_of_plain (.inr habsolute.rooted) habsolute.dotFree]
      rfl
    · obtain ⟨hpath, hquery⟩ := rest_iff.mpr hrest
      have hempty : parse [] = ⟨none, none, [], none, none⟩ := rfl
      rw [hempty]
      simp only [resolve, if_true, hpath, hquery]
      rw [parse_text]
      rfl
  have hposted' : postedPath R = R := by
    rcases hR with habsolute | ⟨rfl, -⟩
    · exact postedPath_absolutePath habsolute
    · rfl
  rw [ResolvesTo, hresolved, hposted, hposted']
  simp only [address, Option.map_some, lower_lower, hendpoint]

/-- **The URL of a request is the resolution** exactly for these. -/
theorem resolvesTo_iff (checks : UrlParse.UrlChecks) :
    (∃ u, serviceRequestUrl checks P R = .ok u ∧ ResolvesTo P R u) ↔ Resolved P R :=
  ⟨fun ⟨_, hrequest, h⟩ => resolved_of_resolvesTo hrequest h, resolvesTo_of_resolved checks⟩

end Resolved

/-! ## The gateway is sent its request -/

section Sent

variable {P : ProfileUrl} {g : Gateway} {info : GatewayService} {k : Gateway.Kind}
  {execute : Text → Router (Option Bool)}

/-- **The program makes one request**, to the URL that the control URL resolves to. -/
def PostsResolution (execute : Text → Router (Option Bool)) (g : Gateway) (P : ProfileUrl)
    (R : Text) : Prop :=
  ∀ (rest : List Gateway) (w : Network), w.pending = g :: rest →
    ∃ outcome w' request, (execute P.text).eval Network.exec w = some (outcome, w') ∧
      w'.sent = w.sent ++ [(request, g.post)] ∧ ResolvesTo P R request.url

/-- The request to a gateway that is asked for, when its service is found. -/
theorem request_eq (hservice : g.service = .ok (some info))
    (hasked : RouterPortManager.filtered k.args (UrlParse.before ':' P.netloc) = false)
    (htarget : ∃ target, g.target k.args = .ok target) :
    ∃ content headers, g.request k P.text = (do
      let url ← serviceRequestUrl k.checks P info.controlPath
      pure (some { url, content, headers })) := by
  obtain ⟨target, htarget⟩ := htarget
  obtain ⟨parsed, hscheme, hnetloc, hparse⟩ := urlparse_text P k.checks
  refine ⟨k.payload info.serviceType target,
    [("SOAPAction".toList, info.serviceType ++ '#' :: k.action),
      ("Content-Type".toList, "text/xml".toList)], ?_⟩
  rw [Gateway.request, serviceRequestUrl, hparse]
  by_cases haccepts : k.checks.accepts P.netloc = true
  · rw [if_pos haccepts, hservice]
    show g.requestTo k parsed info = _
    rw [Gateway.requestTo, RouterPortManager.routerIp, hnetloc, hasked, htarget]
    rfl
  · rw [if_neg haccepts]
    rfl

/-- So there is one exactly when there is a URL. -/
theorem answer_iff (hservice : g.service = .ok (some info))
    (hasked : RouterPortManager.filtered k.args (UrlParse.before ':' P.netloc) = false)
    (htarget : ∃ target, g.target k.args = .ok target) (Q : Text → Prop) :
    (∃ request, (g.answer k P.text).2 = [(request, g.post)] ∧ Q request.url) ↔
      ∃ u, serviceRequestUrl k.checks P info.controlPath = .ok u ∧ Q u := by
  obtain ⟨content, headers, hrequest⟩ := request_eq (P := P) hservice hasked htarget
  rw [Gateway.answer, hrequest]
  cases hurl : serviceRequestUrl k.checks P info.controlPath with
  | error e =>
      constructor
      · rintro ⟨request, h, -⟩
        cases h
      · rintro ⟨u, h, -⟩
        cases h
  | ok url =>
      constructor
      · rintro ⟨request, h, hQ⟩
        have hrequest : ({ url, content, headers } : SoapRequest) = request :=
          congrArg Prod.fst (List.cons.inj h).1
        exact ⟨url, rfl, by rw [← hrequest] at hQ; exact hQ⟩
      · rintro ⟨u, h, hQ⟩
        obtain rfl := Except.ok.inj h
        exact ⟨_, rfl, hQ⟩

/-- **One gateway**, in either program. -/
theorem postsResolution_iff (hanswers : Answers k execute) (hservice : g.service = .ok (some info))
    (hasked : RouterPortManager.filtered k.args (UrlParse.before ':' P.netloc) = false)
    (htarget : ∃ target, g.target k.args = .ok target) :
    PostsResolution execute g P info.controlPath ↔ Resolved P info.controlPath := by
  rw [← resolvesTo_iff k.checks, ← answer_iff hservice hasked htarget]
  constructor
  · intro h
    obtain ⟨outcome, w', request, heval, hsent, hresolves⟩ := h []
      { scans := [], clock := [], pending := [g], current := g, sent := [] } rfl
    obtain ⟨w'', heval', hsent', -⟩ := hanswers.eval P.text g []
      { scans := [], clock := [], pending := [g], current := g, sent := [] } rfl
    rw [heval, Option.some.injEq, Prod.mk.injEq] at heval'
    rw [← heval'.2, hsent] at hsent'
    exact ⟨request, (List.append_cancel_left hsent').symm, hresolves⟩
  · rintro ⟨request, hanswer, hresolves⟩ rest w hw
    obtain ⟨w', heval, hsent, -⟩ := hanswers.eval P.text g rest w hw
    rw [hanswer] at hsent
    exact ⟨_, w', request, heval, hsent, hresolves⟩

end Sent

/-- **The control URL is resolved correctly** exactly when the profile URL gives a name and a
port and the control URL is an absolute path that needs no work, or empty where the profile URL
is too; in both programs that ask a gateway for a mapping. -/
theorem control_url_iff (manager : RouterPortManager) (client : PortForwardingClient)
    (action : Text) (extPort intPort : ℤ) (args : PortArgs) (P : ProfileUrl) (g : Gateway)
    (info : GatewayService) (hservice : g.service = .ok (some info))
    (hasked : RouterPortManager.filtered args (UrlParse.before ':' P.netloc) = false)
    (htarget : ∃ target, g.target args = .ok target) :
    (PostsResolution (manager.executeOnGateway action extPort intPort args) g P
        info.controlPath ↔ Resolved P info.controlPath) ∧
      (PostsResolution (client.mapOnGateway extPort intPort args) g P info.controlPath ↔
        Resolved P info.controlPath) :=
  ⟨postsResolution_iff (answers_executeOnGateway manager action extPort intPort args) hservice
      hasked htarget,
    postsResolution_iff (answers_mapOnGateway client extPort intPort args) hservice hasked htarget⟩

/-! ## A router with and without a port -/

theorem isNameChar_address : ∀ c ∈ "192.168.1.1".toList, isNameChar c = true := by
  have hall : "192.168.1.1".toList.all isNameChar = true := by decide
  exact fun c hc => List.all_eq_true.mp hall c hc

/-- `http://192.168.1.1:5000/rootDesc.xml` -/
def routerUrl : ProfileUrl where
  scheme := "http".toList
  http := Or.inl rfl
  userinfo := none
  userinfoChars := by
    rintro u ⟨⟩
  host := .name "192.168.1.1".toList (List.cons_ne_nil _ _) isNameChar_address
  port := some "5000".toList
  digits := by
    rintro p ⟨⟩
    decide
  rest := "/rootDesc.xml".toList
  rooted := by
    rintro c ⟨⟩
    rfl

/-- `http://192.168.1.1/rootDesc.xml` -/
def bareUrl : ProfileUrl :=
  { routerUrl with
    port := none
    digits := by
      rintro p ⟨⟩ }

theorem resolved_routerUrl : Resolved routerUrl "/ctl/IPConn".toList := by
  have hall : "/ctl/IPConn".toList.all
      (fun c => !endsPath c && decide (c ∉ UrlParse.unsafeChars)) = true := by decide
  simp only [List.all_eq_true, Bool.and_eq_true, Bool.not_eq_true', decide_eq_true_eq] at hall
  refine ⟨⟨rfl, rfl, "5000".toList, rfl, by decide, by decide⟩, .inl ?_⟩
  exact ⟨rfl, by decide, fun c hc => (hall c hc).1, fun c hc => (hall c hc).2, by decide, by decide⟩

/-- The theorem at the router with a port. -/
theorem control_url_port :
    PostsResolution (lenientManager.executeOnGateway RouterPortManager.addAction 6000 6000 {})
        goodGateway.2 routerUrl "/ctl/IPConn".toList ∧
      PostsResolution (({ checks := lenientManager.checks } : PortForwardingClient).mapOnGateway 6000
        6000 {}) goodGateway.2 routerUrl "/ctl/IPConn".toList := by
  obtain ⟨hmanager, hclient⟩ := control_url_iff lenientManager
    { checks := lenientManager.checks } RouterPortManager.addAction 6000 6000 {} routerUrl
    goodGateway.2 ⟨"/ctl/IPConn".toList, "urn:schemas-upnp-org:service:WANIPConnection:1".toList⟩
    rfl rfl ⟨_, rfl⟩
  exact ⟨hmanager.mpr resolved_routerUrl, hclient.mpr resolved_routerUrl⟩

/-- **A router without a port** is posted to at port `None`. -/
theorem control_url_garbles_port :
    (∃ outcome w', (lenientManager.executeOnGateway RouterPortManager.addAction 6000 6000 {}
        bareUrl.text).eval Network.exec (scannedNetwork [(bareUrl.text, goodGateway.2)]) =
        some (outcome, w') ∧
      w'.sent.map (fun p => p.1.url) = ["http://192.168.1.1:None/ctl/IPConn".toList]) ∧
    ¬ PostsResolution (lenientManager.executeOnGateway RouterPortManager.addAction 6000 6000 {})
        goodGateway.2 bareUrl "/ctl/IPConn".toList := by
  have hposted : ∃ outcome w', (lenientManager.executeOnGateway RouterPortManager.addAction 6000 6000
        {} bareUrl.text).eval Network.exec (scannedNetwork [(bareUrl.text, goodGateway.2)]) =
        some (outcome, w') ∧
      w'.sent.map (fun p => p.1.url) = ["http://192.168.1.1:None/ctl/IPConn".toList] :=
    ⟨_, _, rfl, rfl⟩
  refine ⟨hposted, fun h => ?_⟩
  obtain ⟨outcome, w', heval, hurl⟩ := hposted
  obtain ⟨outcome', w'', request, heval', hsent, hresolves⟩ := h []
    (scannedNetwork [(bareUrl.text, goodGateway.2)]) rfl
  rw [heval, Option.some.injEq, Prod.mk.injEq] at heval'
  rw [heval'.2, hsent] at hurl
  have hrequest : request.url = "http://192.168.1.1:None/ctl/IPConn".toList :=
    (List.cons.inj hurl).1
  rw [hrequest] at hresolves
  exact absurd hresolves (by decide)

end ControlUrl
