/-
# The command listener (`service_workers.py`)

`CommandListener.run_forever` accepts a connection, takes what one `recv` returns for its
whole request and starts a thread that dispatches it.  Nothing is caught on the way.

* `CommandListener.serveConnection`, `runForever` : the loop, as a program over
  `ListenerOp`;
* `Connection`, `ListenerWorld` : the clients, each with the segments it sends;
* `IsRequest` : bytes that decode to a JSON object with a type;
* `serves_iff` : every request is dispatched, and the loop goes on, exactly when each
  connection delivers one;
* `silent_connection_ends_listener` : a connection that is closed at once ends the loop.
-/
import StorageNode.NodeOps
import StorageNode.JsonRoundTrip

/-! ## Decoding -/

/-- `data.decode("utf-8")`; bytes that are no UTF-8 raise `UnicodeDecodeError`, a
`ValueError`. -/
def decodeUtf8 (data : Bytes) : Except Exn (List Char) :=
  match data.toByteArray.utf8Decode? with
  | some text => .ok text.toList
  | none => .error .valueError

/-- The UTF-8 encoding of a text. -/
def encodeUtf8 (text : List Char) : Bytes := text.flatMap String.utf8EncodeChar

theorem toByteArray_encodeUtf8 (text : List Char) :
    (encodeUtf8 text).toByteArray = text.utf8Encode := rfl

theorem decodeUtf8_encodeUtf8 (text : List Char) : decodeUtf8 (encodeUtf8 text) = .ok text := by
  unfold decodeUtf8
  rw [toByteArray_encodeUtf8, List.utf8Decode?_utf8Encode]

/-- What decodes is the encoding of what it decodes to. -/
theorem eq_encodeUtf8 {data : Bytes} {text : List Char} (h : decodeUtf8 data = .ok text) :
    data = encodeUtf8 text := by
  unfold decodeUtf8 at h
  split at h
  · next chars hchars =>
      obtain rfl := Except.ok.inj h
      have hget := ByteArray.utf8Encode_get_utf8Decode? (b := data.toByteArray)
        (h := by rw [hchars]; rfl)
      simp only [hchars, Option.get_some] at hget
      rw [← toByteArray_encodeUtf8] at hget
      exact (List.toByteArray_inj.mp hget).symm
  · exact absurd h (by simp)

/-- `json.loads(raw)`. -/
def loadsRequest (raw : List Char) : Except Exn Json :=
  match jsonLoads raw with
  | some incoming => .ok incoming
  | none => .error .jsonDecode

/-- `incoming[key]`: what is no dictionary raises `TypeError`. -/
def Json.getItem : Json → PyStr → Except Exn Json
  | .obj request, key => Dict.getItem request key
  | _, _ => .error .typeError

/-! ## The loop -/

/-- The operations of the listener. -/
inductive ListenerOp
  /-- `srv.bind((address, port))` -/
  | bind (address : String) (port : ℤ)
  /-- `srv.listen(backlog)` -/
  | listen (backlog : ℕ)
  /-- `srv.accept()` -/
  | accept
  /-- `conn.recv(bufsize)` -/
  | recv (conn bufsize : ℕ)
  /-- `threading.Thread(target=dispatch, args=(incoming, conn)).start()` -/
  | startWorker (incoming : Json) (conn : ℕ)

/-- What an operation answers with. -/
@[reducible] def ListenerOp.Res : ListenerOp → Type
  | .accept => ℕ
  | .recv _ _ => Bytes
  | _ => Unit

/-- Programs of the listener. -/
abbrev Listener (α : Type) : Type := Prog ListenerOp ListenerOp.Res Exn α

/-- Call an operation. -/
abbrev listenerOp (o : ListenerOp) : Listener o.Res := Prog.perform o

namespace CommandListener

/-- One pass of the loop. -/
def serveConnection : Listener Unit := do
  let conn ← listenerOp .accept
  -- one `recv`, whatever the request is cut into
  let data ← listenerOp (.recv conn 1024)
  let raw ← Prog.ofExcept (decodeUtf8 data)
  let incoming ← Prog.ofExcept (loadsRequest raw)
  -- the type is read for the log line only; a request without one raises here
  let _ ← Prog.ofExcept (incoming.getItem "type")
  listenerOp (.startWorker incoming conn)

/-- The first `n` passes of `while True`. -/
def acceptLoop : ℕ → Listener Unit
  | 0 => pure ()
  | n + 1 => do
      serveConnection
      acceptLoop n

/-- `run_forever`, up to its `n`-th pass. -/
def runForever (localIp : String) (decentoragePort : ℤ) (n : ℕ) : Listener Unit := do
  listenerOp (.bind localIp decentoragePort)
  listenerOp (.listen 5)
  acceptLoop n

end CommandListener

/-! ## Clients -/

/-- A client's connection: the segments it sends, and how many of them have arrived when
the listener reads. -/
structure Connection where
  segments : List Bytes
  arrived : ℕ := 1

/-- What `recv` returns: it waits for the first segment and takes what is there, at most
`bufsize` bytes, and nothing when the client has closed the connection. -/
def Connection.recv (c : Connection) (bufsize : ℕ) : Bytes :=
  (c.segments.take (max c.arrived 1)).flatten.take bufsize

/-- The connections that wait to be accepted, those that have been, and the threads started
so far, each with its request and its connection. -/
structure ListenerWorld where
  waiting : List Connection
  accepted : List Connection := []
  workers : List (Json × ℕ) := []

/-- One operation.  `accept` blocks when nobody waits. -/
def ListenerWorld.exec (o : ListenerOp) (w : ListenerWorld) :
    Option (Except Exn o.Res × ListenerWorld) :=
  match o with
  | .bind _ _ => some (.ok (), w)
  | .listen _ => some (.ok (), w)
  | .accept =>
      match w.waiting with
      | [] => none
      | c :: rest =>
          some (.ok w.accepted.length, { w with waiting := rest, accepted := w.accepted ++ [c] })
  | .recv conn bufsize => (w.accepted[conn]?).map fun c => (.ok (c.recv bufsize), w)
  | .startWorker incoming conn => some (.ok (), { w with workers := w.workers ++ [(incoming, conn)] })

namespace CommandListener

/-- What one pass makes of the bytes it has received. -/
def requestOf (data : Bytes) : Except Exn Json :=
  match decodeUtf8 data with
  | .error e => .error e
  | .ok raw =>
      match loadsRequest raw with
      | .error e => .error e
      | .ok incoming =>
          match incoming.getItem "type" with
          | .error e => .error e
          | .ok _ => .ok incoming

/-- **The listener's own notion of a request**: bytes that decode to a JSON object with a
type. -/
def IsRequest (data : Bytes) (request : Dict) : Prop :=
  ∃ text, data = encodeUtf8 text ∧ jsonLoads text = some (.obj request) ∧
    ("type" : PyStr) ∈ request.keys

theorem getItem_ok_iff {request : Dict} {key : PyStr} :
    (∃ v, request.getItem key = .ok v) ↔ key ∈ request.keys := by
  unfold Dict.getItem
  induction request with
  | nil => simp [Dict.keys]
  | cons kv r ih =>
      obtain ⟨k, v⟩ := kv
      rw [Dict.keys_cons, List.mem_cons, ← ih, Dict.get?]
      by_cases hk : k = key
      · simp [hk]
      · simp [hk, Ne.symm hk]

/-- One pass accepts exactly the requests. -/
theorem requestOf_eq_ok_iff {data : Bytes} {incoming : Json} :
    requestOf data = .ok incoming ↔ ∃ request, incoming = .obj request ∧ IsRequest data request := by
  unfold requestOf
  constructor
  · intro h
    split at h
    · exact absurd h (by simp)
    · next raw hraw =>
        split at h
        · exact absurd h (by simp)
        · next v hload =>
            split at h
            · exact absurd h (by simp)
            · next type htype =>
                obtain rfl := Except.ok.inj h
                have hloads : jsonLoads raw = some v := by
                  unfold loadsRequest at hload
                  split at hload
                  · next v' hv =>
                      rw [hv, Except.ok.inj hload]
                  · exact absurd hload (by simp)
                cases v with
                | obj request =>
                    exact ⟨request, rfl, raw, eq_encodeUtf8 hraw, hloads,
                      getItem_ok_iff.mp ⟨type, htype⟩⟩
                | _ => exact absurd htype (by simp [Json.getItem])
  · rintro ⟨request, rfl, text, rfl, hload, htype⟩
    obtain ⟨v, hv⟩ := getItem_ok_iff.mpr htype
    simp only [decodeUtf8_encodeUtf8, loadsRequest, hload, Json.getItem, hv]

/-! ## One pass, and all of them -/

/-- **One pass**: a thread is started for a request, everything else ends the loop. -/
theorem eval_serveConnection (c : Connection) (rest accepted : List Connection)
    (workers : List (Json × ℕ)) :
    serveConnection.eval ListenerWorld.exec ⟨c :: rest, accepted, workers⟩ =
      match requestOf (c.recv 1024) with
      | .ok incoming =>
          some (.ok (), ⟨rest, accepted ++ [c], workers ++ [(incoming, accepted.length)]⟩)
      | .error e => some (.error e, ⟨rest, accepted ++ [c], workers⟩) := by
  have hrecv : ∀ n, ListenerWorld.exec (.recv accepted.length n) ⟨rest, accepted ++ [c], workers⟩ =
      some (.ok (c.recv n), ⟨rest, accepted ++ [c], workers⟩) := by
    intro n
    simp [ListenerWorld.exec]
  have haccept : ListenerWorld.exec .accept ⟨c :: rest, accepted, workers⟩ =
      some (.ok accepted.length, ⟨rest, accepted ++ [c], workers⟩) := rfl
  simp only [serveConnection, Prog.bind_eq, Prog.eval_bind, Prog.eval_perform, haccept, hrecv,
    requestOf]
  cases hraw : decodeUtf8 (c.recv 1024) with
  | error e => rfl
  | ok raw =>
      simp only [Prog.ofExcept, Prog.eval]
      cases hload : loadsRequest raw with
      | error e => rfl
      | ok incoming =>
          simp only [Prog.eval]
          cases incoming.getItem "type" with
          | error e => rfl
          | ok type => rfl

/-- The threads that are started for connections numbered from `n` on, when each of them
delivers a request. -/
def numbered (n : ℕ) (requests : List Dict) : List (Json × ℕ) :=
  (requests.zipIdx n).map fun r => (.obj r.1, r.2)

@[simp] theorem numbered_nil (n : ℕ) : numbered n [] = [] := rfl

@[simp] theorem numbered_cons (n : ℕ) (r : Dict) (rs : List Dict) :
    numbered n (r :: rs) = (.obj r, n) :: numbered (n + 1) rs := rfl

/-- **The loop on connections that all deliver requests.** -/
theorem eval_acceptLoop {cs : List Connection} {requests : List Dict}
    (h : List.Forall₂ (fun c r => IsRequest (c.recv 1024) r) cs requests)
    (accepted : List Connection) (workers : List (Json × ℕ)) :
    (acceptLoop cs.length).eval ListenerWorld.exec ⟨cs, accepted, workers⟩ =
      some (.ok (), ⟨[], accepted ++ cs, workers ++ numbered accepted.length requests⟩) := by
  induction h generalizing accepted workers with
  | nil => simp [acceptLoop, Prog.eval]
  | @cons c r cs rs hc _ ih =>
      have hrequest : requestOf (c.recv 1024) = .ok (.obj r) := requestOf_eq_ok_iff.mpr ⟨r, rfl, hc⟩
      rw [List.length_cons, acceptLoop, Prog.bind_eq, Prog.eval_bind, eval_serveConnection, hrequest]
      show (acceptLoop cs.length).eval ListenerWorld.exec _ = _
      rw [ih, numbered_cons, List.append_assoc, List.append_assoc, List.length_append]
      rfl

/-- When the loop is still running each connection has delivered a request. -/
theorem requests_of_eval_acceptLoop {cs accepted : List Connection} {workers : List (Json × ℕ)}
    {w : ListenerWorld}
    (h : (acceptLoop cs.length).eval ListenerWorld.exec ⟨cs, accepted, workers⟩ = some (.ok (), w)) :
    ∃ requests, List.Forall₂ (fun c r => IsRequest (c.recv 1024) r) cs requests := by
  induction cs generalizing accepted workers with
  | nil => exact ⟨[], .nil⟩
  | cons c cs ih =>
      rw [List.length_cons, acceptLoop, Prog.bind_eq, Prog.eval_bind, eval_serveConnection] at h
      cases hrequest : requestOf (c.recv 1024) with
      | error e =>
          rw [hrequest] at h
          exact absurd h (by simp)
      | ok incoming =>
          rw [hrequest] at h
          obtain ⟨request, -, hc⟩ := requestOf_eq_ok_iff.mp hrequest
          obtain ⟨requests, hrest⟩ := ih h
          exact ⟨request :: requests, .cons hc hrest⟩

/-- The threads are those of the connections that delivered a request, in the order in which
these were accepted. -/
def DispatchesExactly (cs : List Connection) (workers : List (Json × ℕ)) : Prop :=
  workers.Pairwise (fun a b => a.2 < b.2) ∧
    ∀ incoming i, (incoming, i) ∈ workers ↔ ∃ c request, cs[i]? = some c ∧
      incoming = .obj request ∧ IsRequest (c.recv 1024) request

/-- **The loop isolates bad connections**: after as many passes as there are connections it
is still running, and it has dispatched the requests and nothing else. -/
def Serves (localIp : String) (decentoragePort : ℤ) (cs : List Connection) : Prop :=
  ∃ w, (runForever localIp decentoragePort cs.length).eval ListenerWorld.exec ⟨cs, [], []⟩ =
    some (.ok (), w) ∧ DispatchesExactly cs w.workers

theorem isRequest_unique {data : Bytes} {r r' : Dict} (h : IsRequest data r)
    (h' : IsRequest data r') : r = r' := by
  have heq := (requestOf_eq_ok_iff.mpr ⟨r, rfl, h⟩).symm.trans (requestOf_eq_ok_iff.mpr ⟨r', rfl, h'⟩)
  exact Json.obj.inj (Except.ok.inj heq)

theorem numbered_pairwise (n : ℕ) (requests : List Dict) :
    (∀ p ∈ numbered n requests, n ≤ p.2) ∧ (numbered n requests).Pairwise fun a b => a.2 < b.2 := by
  induction requests generalizing n with
  | nil => exact ⟨fun p hp => absurd hp List.not_mem_nil, .nil⟩
  | cons r rs ih =>
      obtain ⟨hle, hpair⟩ := ih (n + 1)
      rw [numbered_cons]
      constructor
      · intro p hp
        rcases List.mem_cons.mp hp with rfl | hp
        · exact le_refl n
        · have := hle p hp
          omega
      · exact List.pairwise_cons.mpr ⟨fun p hp => hle p hp, hpair⟩

theorem mem_numbered {n i : ℕ} {incoming : Json} {requests : List Dict} :
    (incoming, n + i) ∈ numbered n requests ↔
      ∃ request, requests[i]? = some request ∧ incoming = .obj request := by
  unfold numbered
  simp only [List.mem_map, Prod.mk.injEq, Prod.exists, List.mem_zipIdx_iff_le_and_getElem?_sub]
  constructor
  · rintro ⟨request, j, ⟨-, hj⟩, rfl, rfl⟩
    rw [Nat.add_sub_cancel_left] at hj
    exact ⟨request, hj, rfl⟩
  · rintro ⟨request, hi, rfl⟩
    refine ⟨request, n + i, ⟨Nat.le_add_right n i, ?_⟩, rfl, rfl⟩
    rw [Nat.add_sub_cancel_left]
    exact hi

/-- Connections that all deliver requests have these dispatched. -/
theorem dispatchesExactly_numbered {cs : List Connection} {requests : List Dict}
    (h : List.Forall₂ (fun c r => IsRequest (c.recv 1024) r) cs requests) :
    DispatchesExactly cs (numbered 0 requests) := by
  refine ⟨(numbered_pairwise 0 requests).2, fun incoming i => ?_⟩
  have hmem : (incoming, i) ∈ numbered 0 requests ↔
      ∃ request, requests[i]? = some request ∧ incoming = .obj request := by
    rw [← mem_numbered (n := 0), Nat.zero_add]
  rw [hmem]
  obtain ⟨hlen, hget⟩ := List.forall₂_iff_get.mp h
  constructor
  · rintro ⟨request, hi, rfl⟩
    obtain ⟨hlt, rfl⟩ := List.getElem?_eq_some_iff.mp hi
    exact ⟨cs[i], requests[i], List.getElem?_eq_getElem (hlen ▸ hlt), rfl,
      hget i (hlen ▸ hlt) hlt⟩
  · rintro ⟨c, request, hi, rfl, hc⟩
    obtain ⟨hlt, rfl⟩ := List.getElem?_eq_some_iff.mp hi
    refine ⟨request, ?_, rfl⟩
    rw [List.getElem?_eq_getElem (hlen ▸ hlt), Option.some.injEq]
    exact isRequest_unique (hget i hlt (hlen ▸ hlt)) hc

theorem eval_runForever (localIp : String) (decentoragePort : ℤ) (n : ℕ) (w : ListenerWorld) :
    (runForever localIp decentoragePort n).eval ListenerWorld.exec w =
      (acceptLoop n).eval ListenerWorld.exec w := by
  simp only [runForever, Prog.bind_eq, Prog.eval_bind, Prog.eval_perform, ListenerWorld.exec]

/-- **The listener serves its connections exactly when each of them delivers a request**:
nothing is caught between `accept` and the start of the thread, so the first connection that
delivers anything else ends the loop. -/
theorem serves_iff (localIp : String) (decentoragePort : ℤ) (cs : List Connection) :
    Serves localIp decentoragePort cs ↔ ∀ c ∈ cs, ∃ request, IsRequest (c.recv 1024) request := by
  unfold Serves
  rw [eval_runForever]
  constructor
  · rintro ⟨w, hw, -⟩ c hc
    obtain ⟨requests, hall⟩ := requests_of_eval_acceptLoop hw
    obtain ⟨hlen, hget⟩ := List.forall₂_iff_get.mp hall
    obtain ⟨i, hi, rfl⟩ := List.getElem_of_mem hc
    exact ⟨requests[i], hget i hi (hlen ▸ hi)⟩
  · intro h
    choose! request hrequest using h
    have hall : List.Forall₂ (fun c r => IsRequest (c.recv 1024) r) cs (cs.map request) := by
      rw [List.forall₂_map_right_iff, List.forall₂_same]
      exact hrequest
    exact ⟨_, eval_acceptLoop hall [] [], dispatchesExactly_numbered hall⟩

/-- A client that asks for an upload. -/
def uploadClient : Connection :=
  { segments := [encodeUtf8 (Json.obj [("type", .str "upload"), ("shard_id", .str "s"),
      ("port", .int 0)]).text] }

/-- **A connection that is closed at once ends the loop**: the client after it is neither
accepted nor served. -/
theorem silent_connection_ends_listener :
    (∃ w, (runForever "" 50000 2).eval ListenerWorld.exec ⟨[{ segments := [] }, uploadClient], [], []⟩ =
      some (.error .jsonDecode, w) ∧ w.waiting = [uploadClient] ∧ w.workers = []) ∧
      ¬ Serves "" 50000 [{ segments := [] }, uploadClient] := by
  have hsilent : requestOf (Connection.recv { segments := [] } 1024) = .error .jsonDecode := by
    have hdecode : decodeUtf8 [] = .ok [] := decodeUtf8_encodeUtf8 []
    have hrecv : Connection.recv { segments := [] } 1024 = [] := rfl
    rw [hrecv, requestOf, hdecode]
    rfl
  have hrun : (runForever "" 50000 2).eval ListenerWorld.exec
      ⟨[{ segments := [] }, uploadClient], [], []⟩ =
        some (.error .jsonDecode, ⟨[uploadClient], [{ segments := [] }], []⟩) := by
    rw [eval_runForever, acceptLoop, Prog.bind_eq, Prog.eval_bind, eval_serveConnection, hsilent]
    rfl
  refine ⟨⟨_, hrun, rfl, rfl⟩, ?_⟩
  rintro ⟨w, hw, -⟩
  rw [show [({ segments := [] } : Connection), uploadClient].length = 2 from rfl, hrun] at hw
  exact absurd hw (by simp)

end CommandListener
