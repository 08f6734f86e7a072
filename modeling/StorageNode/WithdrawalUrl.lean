/-
# The URL of a withdrawal (`backend_client.py`)

`withdraw_request` is the one method whose route has no leading slash, and it puts the shard
id into the route as it is.

* `BaseUrl` : a server URL, with its scheme and its authority;
* `Http.PostsTo` : the one request of a program;
* `Addresses` : what the URL of a withdrawal has to name, component by component;
* `no_withdrawal_identifies` : no URL the client builds names it;
* `addresses_slashed` : the same route with the slash and an encoded segment would;
* `withdrawalUrl_injective` : different shards do get different URLs.
-/
import StorageNode.CoordinationClient
import StorageNode.UriReference

open UriReference

/-! ## Requests -/

/-- A world that answers every request alike and keeps a list of them. -/
def recordRequest (answer : Except Exn Response) (o : HttpOp)
    (log : List (HttpMethod × PyStr)) : Option (Except Exn o.Res × List (HttpMethod × PyStr)) :=
  match o with
  | .request method url _ _ => some (answer, log ++ [(method, url)])

/-- **The program makes one request**, a POST to this URL, whatever comes of it. -/
def Http.PostsTo {α : Type} (p : Http α) (url : List Char) : Prop :=
  ∀ answer, ∃ r, p.eval (recordRequest answer) [] = some (r, [(.post, PyStr.ofString (String.ofList url))])

namespace Withdrawal

/-- An `http` or `https` URL with a host; slashes may follow its path. -/
structure BaseUrl where
  text : String
  scheme : List Char
  authority : List Char
  hscheme : (parse text.toList).scheme = some scheme
  http : lower scheme = "http".toList ∨ lower scheme = "https".toList
  hauthority : (parse text.toList).authority = some authority
  host : (UriReference.endpoint (some (lower scheme)) authority).host ≠ []

/-- The base URL without the slashes at its end. -/
def BaseUrl.root (base : BaseUrl) : List Char := (rstripSlash base.text).toList

/-- The URL `withdraw_request` posts to. -/
def url (base : BaseUrl) (shard : String) : List Char :=
  base.root ++ ("storage-nodes/me/contracts/".toList ++ (shard.toList ++ "/withdrawal".toList))

/-- What the URL of a withdrawal is to name: the server of the base URL, and under its path
the shard as one segment. -/
def wanted (base : BaseUrl) (shard : String) : Address :=
  { address (parse base.root) with
    path := (parse base.root).path ++ "/storage-nodes/me/contracts/".toList ++
      percentEncode shard.toList ++ "/withdrawal".toList
    query := none
    fragment := none }

/-- The URL names the withdrawal of the shard. -/
def Addresses (base : BaseUrl) (shard : String) (url : List Char) : Prop :=
  address (parse url) = wanted base shard

instance (base : BaseUrl) (shard : String) (url : List Char) :
    Decidable (Addresses base shard url) := inferInstanceAs (Decidable (_ = _))

/-- **The URLs keep the server and identify the shard.** -/
def Identifies (base : BaseUrl) (token : Option PyStr) (s t : String) : Prop :=
  ∃ u v, ((CoordinationClient.init base.text token).withdrawRequest s).PostsTo u ∧
    ((CoordinationClient.init base.text token).withdrawRequest t).PostsTo v ∧
    Addresses base s u ∧ (u = v → s = t)

/-! ## The URL that is built -/

section Built

variable (base : BaseUrl) (token : Option PyStr)

theorem buildUrl_withdrawalRoute (shard : String) :
    (CoordinationClient.init base.text token).buildUrl (CoordinationClient.withdrawalRoute shard) =
      PyStr.ofString (String.ofList (url base shard)) := by
  simp [CoordinationClient.buildUrl, CoordinationClient.withdrawalRoute, CoordinationClient.init,
    url, BaseUrl.root, PyStr.ofString]

theorem postsTo_withdrawRequest (shard : String) :
    ((CoordinationClient.init base.text token).withdrawRequest shard).PostsTo
      (url base shard) := by
  intro answer
  refine ⟨reportedOf answer, ?_⟩
  show ((CoordinationClient.safeRequest _ .post _ (some _)).bind fun _ => .ret ()).eval _ _ = _
  rw [eval_report, buildUrl_withdrawalRoute]
  rfl

/-- There is no other request. -/
theorem eq_url_of_postsTo {shard : String} {u : List Char}
    (h : ((CoordinationClient.init base.text token).withdrawRequest shard).PostsTo u) :
    u = url base shard := by
  obtain ⟨r, hr⟩ := h (.error .requestError)
  obtain ⟨r', hr'⟩ := postsTo_withdrawRequest base token shard (.error .requestError)
  rw [hr, Option.some.injEq, Prod.mk.injEq, List.cons.injEq, Prod.mk.injEq] at hr'
  exact String.ofList_injective (PyStr.ofString_inj.mp hr'.2.1.2)

/-- **Different shards get different URLs.** -/
theorem withdrawalUrl_injective {s t : String} (h : url base s = url base t) :
    s = t := by
  have htail := List.append_cancel_left (List.append_cancel_left h)
  exact String.toList_inj.mp (List.append_cancel_right htail)

/-- What stands before a stretch that is cut off stays. -/
theorem rdropWhile_append {p : Char → Bool} {front : List Char}
    (hfront : ∀ hne : front ≠ [], ¬ p (front.getLast hne) = true) (rest : List Char) :
    (front ++ rest).rdropWhile p = front ++ rest.rdropWhile p := by
  induction rest using List.reverseRecOn with
  | nil =>
      rw [List.append_nil, List.rdropWhile_nil, List.append_nil]
      exact List.rdropWhile_eq_self_iff.mpr hfront
  | append_singleton rest x ih =>
      rw [← List.append_assoc]
      by_cases hx : p x = true
      · rw [List.rdropWhile_concat_pos p _ _ hx, List.rdropWhile_concat_pos p _ _ hx, ih]
      · rw [List.rdropWhile_concat_neg p _ _ hx, List.rdropWhile_concat_neg p _ _ hx,
          List.append_assoc]

/-- The parts of a base URL without its slashes. -/
theorem exists_root : ∃ rest, base.root = base.scheme ++ ':' :: '/' :: '/' ::
    (base.authority ++ rest) ∧ base.scheme ≠ [] ∧ (∀ c ∈ base.scheme, endsScheme c = false) ∧
    (∀ c ∈ base.authority, endsAuthority c = false) ∧
    ∀ c, rest.head? = some c → endsAuthority c = true := by
  obtain ⟨rest, htext, hne, hscheme, hauthority, hrest⟩ :=
    exists_hierarchical base.hscheme base.hauthority
  have hfront : ∀ h : base.scheme ++ ':' :: '/' :: '/' :: base.authority ≠ [],
      ¬ ((base.scheme ++ ':' :: '/' :: '/' :: base.authority).getLast h == '/') = true := by
    intro h hlast
    have hne : base.authority ≠ [] := by
      intro hnil
      refine base.host ?_
      rw [hnil]
      rfl
    rw [beq_iff_eq, List.getLast_append_of_ne_nil _ (by simp), List.getLast_cons (by simp),
      List.getLast_cons (by simp), List.getLast_cons hne] at hlast
    have hmem := hauthority _ (List.getLast_mem hne)
    rw [hlast] at hmem
    exact absurd hmem (by decide)
  refine ⟨rest.rdropWhile (· == '/'), ?_, hne, hscheme, hauthority, fun c hc => hrest c ?_⟩
  · unfold BaseUrl.root rstripSlash
    have hcut := rdropWhile_append (p := (· == '/')) hfront rest
    rw [List.append_assoc, List.append_assoc] at hcut
    rw [String.toList_ofList, htext]
    exact hcut
  · obtain ⟨tail, htail⟩ := List.rdropWhile_prefix (· == '/') (l := rest)
    rw [← htail, List.head?_append, hc]
    rfl

/-- What follows the authority decides the path, the query and the fragment. -/
theorem address_parts {scheme authority rest : List Char} {shard : String}
    (h : address (parseRest (some scheme) (some authority) rest) = wanted base shard) :
    rest = (parse base.root).path ++ ("/storage-nodes/me/contracts/".toList ++
      (percentEncode shard.toList ++ "/withdrawal".toList)) := by
  have hquery : (parseRest (some scheme) (some authority) rest).query = none :=
    congrArg Address.query h
  have hfragment : (parseRest (some scheme) (some authority) rest).fragment = none :=
    congrArg Address.fragment h
  have hpath : (parseRest (some scheme) (some authority) rest).path = _ := congrArg Address.path h
  rw [path_eq_rest hquery hfragment] at hpath
  rw [hpath, wanted, List.append_assoc, List.append_assoc]

/-- **The URL that is built names something else**, whatever the base and the shard: where the
base has a path its last segment runs into the route, and where it has none the host does. -/
theorem not_addresses (shard : String) : ¬ Addresses base shard (url base shard) := by
  intro h
  obtain ⟨rest, hroot, hne, hscheme, hauthority, hrest⟩ := exists_root base
  unfold Addresses at h
  rw [url, hroot] at h
  have hbuilt : ∀ rest', base.scheme ++ ':' :: '/' :: '/' :: (base.authority ++ rest) ++ rest' =
      base.scheme ++ ':' :: '/' :: '/' :: (base.authority ++ (rest ++ rest')) := by
    intro rest'
    simp only [List.append_assoc, List.cons_append]
  rw [hbuilt] at h
  cases rest with
  | nil =>
      have hlonger : ∀ c ∈ base.authority ++ "storage-nodes".toList, endsAuthority c = false := by
        intro c hc
        rcases List.mem_append.mp hc with hc | hc
        · exact hauthority c hc
        · have hall : "storage-nodes".toList.all (!endsAuthority ·) = true := by decide
          simpa using List.all_eq_true.mp hall c hc
      have hparse : parse (base.scheme ++ ':' :: '/' :: '/' ::
          (base.authority ++ "storage-nodes".toList ++ ("/me/contracts/".toList ++
            (shard.toList ++ "/withdrawal".toList)))) = _ :=
        parse_hierarchical hne hscheme hlonger (by rintro c ⟨⟩; rfl)
      rw [List.append_assoc] at hparse
      change address (parse (base.scheme ++ ':' :: '/' :: '/' :: (base.authority ++
        ("storage-nodes".toList ++ ("/me/contracts/".toList ++ _))))) = _ at h
      rw [hparse] at h
      have hpath := address_parts base h
      rw [hroot, parse_hierarchical hne hscheme hauthority hrest] at hpath
      -- `/me` against `/storage-nodes`
      exact absurd (congrArg (fun l => l[1]?) hpath) (by
        show some 'm' ≠ some 's'
        decide)
  | cons c rest =>
      rw [parse_hierarchical hne hscheme hauthority (by
        rintro d ⟨⟩
        exact hrest c rfl)] at h
      have hpath := address_parts base h
      rw [hroot, parse_hierarchical hne hscheme hauthority hrest] at hpath
      obtain hcut := List.takeWhile_append_dropWhile (p := (!endsPath ·)) (l := c :: rest)
      change _ = (c :: rest).takeWhile (!endsPath ·) ++ _ at hpath
      rw [← hcut, List.append_assoc, List.takeWhile_append_dropWhile] at hpath
      have htail := List.append_cancel_left hpath
      cases hdrop : (c :: rest).dropWhile (!endsPath ·) with
      | nil =>
          -- `storage-nodes` against `/storage-nodes`
          rw [hdrop] at htail
          exact absurd (congrArg List.head? htail) (by
            show some 's' ≠ some '/'
            decide)
      | cons d drop =>
          have hd := head_dropWhile (p := endsPath) (s := c :: rest) d (by rw [hdrop]; rfl)
          rw [hdrop] at htail
          have hslash : d = '/' := (List.cons.inj htail).1
          rw [hslash] at hd
          exact absurd hd (by decide)

/-- **With a slash and an encoded segment** the URL names the withdrawal, under a base URL
without a query and a fragment. -/
theorem addresses_slashed (shard : String) (hquery : (parse base.root).query = none)
    (hfragment : (parse base.root).fragment = none) :
    Addresses base shard (base.root ++ ("/storage-nodes/me/contracts/".toList ++
      (percentEncode shard.toList ++ "/withdrawal".toList))) := by
  obtain ⟨rest, hroot, hne, hscheme, hauthority, hrest⟩ := exists_root base
  have hbase := parse_hierarchical hne hscheme hauthority hrest
  rw [← hroot] at hbase
  rw [hbase] at hquery hfragment
  have hplain : ∀ c ∈ rest ++ ("/storage-nodes/me/contracts/".toList ++
      (percentEncode shard.toList ++ "/withdrawal".toList)), endsPath c = false := by
    have hroute : "/storage-nodes/me/contracts/".toList.all (!endsPath ·) = true := by decide
    have haction : "/withdrawal".toList.all (!endsPath ·) = true := by decide
    simp only [List.mem_append]
    rintro c (hc | hc | hc | hc)
    · rw [← path_eq_rest hquery hfragment] at hc
      exact mem_takeWhile_not hc
    · simpa using List.all_eq_true.mp hroute c hc
    · have hdelim := endsAuthority_percentEncode hc
      unfold endsAuthority at hdelim
      rw [Bool.or_assoc, Bool.or_eq_false_iff] at hdelim
      exact hdelim.2
    · simpa using List.all_eq_true.mp haction c hc
  have hlonger : parse (base.root ++ ("/storage-nodes/me/contracts/".toList ++
      (percentEncode shard.toList ++ "/withdrawal".toList))) =
      ⟨some base.scheme, some base.authority, rest ++ ("/storage-nodes/me/contracts/".toList ++
        (percentEncode shard.toList ++ "/withdrawal".toList)), none, none⟩ := by
    have hends : ∀ c, (rest ++ ("/storage-nodes/me/contracts/".toList ++
        (percentEncode shard.toList ++ "/withdrawal".toList))).head? = some c →
        endsAuthority c = true := by
      intro c hc
      cases rest with
      | nil =>
          cases hc
          rfl
      | cons d rest =>
          cases hc
          exact hrest c rfl
    have htake := takeWhile_append_stop (p := endsPath) (b := []) hplain (by simp)
    have hdrop := dropWhile_append_stop (p := endsPath) (b := []) hplain (by simp)
    rw [List.append_nil] at htake hdrop
    rw [hroot, List.append_assoc, List.cons_append, List.cons_append, List.cons_append,
      List.append_assoc, parse_hierarchical hne hscheme hauthority hends, parseRest, htake, hdrop]
    rfl
  unfold Addresses wanted
  rw [hlonger, hbase, List.append_assoc, List.append_assoc, path_eq_rest hquery hfragment]
  rfl

end Built

/-- **No withdrawal keeps the server and identifies the shard**, whatever the base URL, the
token and the shards are. -/
theorem no_withdrawal_identifies (base : BaseUrl) (token : Option PyStr) (s t : String) :
    ¬ Identifies base token s t := by
  rintro ⟨u, v, hu, -, haddress, -⟩
  rw [eq_url_of_postsTo base token hu] at haddress
  exact not_addresses base s haddress

theorem scheme_local : (parse "http://localhost:5000".toList).scheme = some "http".toList := by
  decide

theorem authority_local :
    (parse "http://localhost:5000".toList).authority = some "localhost:5000".toList := by
  decide

theorem http_local : lower "http".toList = "http".toList ∨ lower "http".toList = "https".toList :=
  Or.inl rfl

theorem host_local : (UriReference.endpoint (some (lower "http".toList))
    "localhost:5000".toList).host ≠ [] := by
  decide

/-- The default server. -/
def localBase : BaseUrl where
  text := "http://localhost:5000"
  scheme := "http".toList
  authority := "localhost:5000".toList
  hscheme := scheme_local
  http := http_local
  hauthority := authority_local
  host := host_local

/-- The route runs into the port. -/
theorem withdrawal_garbles_port :
    url localBase "shard-1" =
        "http://localhost:5000storage-nodes/me/contracts/shard-1/withdrawal".toList ∧
      ¬ Identifies localBase none "shard-1" "shard-2" := by
  refine ⟨by decide, ?_⟩
  rintro ⟨u, v, hu, -, haddress, -⟩
  rw [eq_url_of_postsTo localBase none hu] at haddress
  exact absurd haddress (by decide)

end Withdrawal
