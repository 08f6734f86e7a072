/-
# Where a request ends on the stream

The listener takes what its only `recv` returns for the whole request.  Whatever segments
the request's text comes in, it is dispatched exactly when that `recv` already returns all
of it, whitespace at the end apart.

* `isRequest_append_iff` : which beginnings of a request's text are requests;
* `Connection.ArrivesWhole` : what the segments have to be like;
* `framing_iff` : the requests are dispatched exactly then;
* `segmented_request_ends_listener` : one request in two segments, of which the first has
  arrived.
-/
import StorageNode.CommandListener
import StorageNode.JsonPrefix

/-! ## Whitespace as bytes -/

/-- The bytes of JSON's whitespace. -/
def isBlankByte (b : UInt8) : Bool := b = 32 || b = 9 || b = 10 || b = 13

theorem utf8EncodeChar_of_isJsonSpace {c : Char} (h : isJsonSpace c = true) :
    ∃ b, String.utf8EncodeChar c = [b] ∧ isBlankByte b = true := by
  simp only [isJsonSpace, Bool.or_eq_true, decide_eq_true_eq] at h
  rcases h with ((rfl | rfl) | rfl) | rfl
  · exact ⟨32, rfl, rfl⟩
  · exact ⟨9, rfl, rfl⟩
  · exact ⟨10, rfl, rfl⟩
  · exact ⟨13, rfl, rfl⟩

/-- Only one-byte characters end in a byte below 128. -/
theorem utf8EncodeChar_getLast (c : Char) :
    (∃ b, String.utf8EncodeChar c = [b] ∧ b.toNat = c.toNat) ∨
      ∃ w b, String.utf8EncodeChar c = w ++ [b] ∧ 128 ≤ b.toNat := by
  have hlast : 128 ≤ (UInt8.ofNat (c.val.toNat % 0x40 + 0x80)).toNat := by
    rw [UInt8.toNat_ofNat']
    omega
  unfold String.utf8EncodeChar
  dsimp only
  split
  · next hsmall =>
      refine Or.inl ⟨_, rfl, ?_⟩
      rw [UInt8.toNat_ofNat']
      show c.val.toNat % 2 ^ 8 = c.val.toNat
      omega
  · split
    · exact Or.inr ⟨[_], _, rfl, hlast⟩
    · split
      · exact Or.inr ⟨[_, _], _, rfl, hlast⟩
      · exact Or.inr ⟨[_, _, _], _, rfl, hlast⟩

/-- A blank byte at the end of an encoded text is a whitespace character. -/
theorem encodeUtf8_concat {text : List Char} {a : Bytes} {b : UInt8} (hb : isBlankByte b = true)
    (h : encodeUtf8 text = a ++ [b]) :
    ∃ p c, text = p ++ [c] ∧ isJsonSpace c = true ∧ a = encodeUtf8 p := by
  rcases List.eq_nil_or_concat text with rfl | ⟨p, c, rfl⟩
  · exact absurd h (by simp [encodeUtf8])
  · rw [List.concat_eq_append] at h ⊢
    have hsplit : encodeUtf8 p ++ String.utf8EncodeChar c = a ++ [b] := by
      rw [← h]
      simp [encodeUtf8]
    have hsmall : b.toNat < 128 ∧ ∀ c : Char, b.toNat = c.toNat → isJsonSpace c = true := by
      simp only [isBlankByte, Bool.or_eq_true, decide_eq_true_eq] at hb
      rcases hb with ((rfl | rfl) | rfl) | rfl
      all_goals
        refine ⟨by decide, fun c hc => ?_⟩
        rw [← Char.ofNat_toNat c, ← hc]
        rfl
    rcases utf8EncodeChar_getLast c with ⟨b', hc, hb'⟩ | ⟨w, b', hc, hb'⟩
    · rw [hc] at hsplit
      obtain ⟨ha, hbb⟩ := List.append_inj' hsplit rfl
      obtain rfl := List.singleton_inj.mp hbb
      exact ⟨p, c, rfl, hsmall.2 c hb', ha.symm⟩
    · rw [hc, ← List.append_assoc] at hsplit
      obtain ⟨-, hbb⟩ := List.append_inj' hsplit rfl
      obtain rfl := List.singleton_inj.mp hbb
      exact absurd hsmall.1 (by omega)

/-- Blank bytes at the end of an encoded text are whitespace. -/
theorem encodeUtf8_append_blank {rest : Bytes} (hrest : ∀ b ∈ rest, isBlankByte b = true)
    {text : List Char} {a : Bytes} (h : encodeUtf8 text = a ++ rest) :
    ∃ p q, text = p ++ q ∧ (∀ c ∈ q, isJsonSpace c = true) ∧ a = encodeUtf8 p := by
  induction rest using List.reverseRecOn generalizing text with
  | nil => exact ⟨text, [], by simp, by simp, by rw [h, List.append_nil]⟩
  | append_singleton rest b ih =>
      rw [← List.append_assoc] at h
      obtain ⟨p, c, rfl, hc, ha⟩ := encodeUtf8_concat (hrest b (by simp)) h
      obtain ⟨p', q, rfl, hq, ha'⟩ := ih (fun b hb => hrest b (List.mem_append_left _ hb)) ha.symm
      refine ⟨p', q ++ [c], by rw [List.append_assoc], fun x hx => ?_, ha'⟩
      rcases List.mem_append.mp hx with hx | hx
      · exact hq x hx
      · rw [List.mem_singleton.mp hx]
        exact hc

/-- A text whose encoding starts like that of another one starts like it. -/
theorem prefix_of_encodeUtf8 {p text : List Char} {rest : Bytes}
    (h : encodeUtf8 text = encodeUtf8 p ++ rest) : ∃ q, text = p ++ q ∧ rest = encodeUtf8 q := by
  have hbytes : p.utf8Encode ++ rest.toByteArray = text.utf8Encode := by
    rw [← toByteArray_encodeUtf8, ← toByteArray_encodeUtf8, h, List.toByteArray_append]
  obtain ⟨q, rfl⟩ := List.isPrefix_of_utf8Encode_append_eq_utf8Encode _ hbytes
  refine ⟨q, rfl, ?_⟩
  have happend : encodeUtf8 (p ++ q) = encodeUtf8 p ++ encodeUtf8 q := by simp [encodeUtf8]
  exact (List.append_cancel_left (happend.symm.trans h)).symm

/-! ## Beginnings of a request -/

namespace CommandListener

/-- **A beginning of the text of a request** is a request exactly when only whitespace is
missing, and then it is the same one. -/
theorem isRequest_append_iff {a rest : Bytes} {request : Dict} (h : IsRequest (a ++ rest) request)
    (r : Dict) : IsRequest a r ↔ (∀ b ∈ rest, isBlankByte b = true) ∧ r = request := by
  obtain ⟨text, htext, hload, htype⟩ := h
  constructor
  · rintro ⟨p, rfl, hp, -⟩
    obtain ⟨q, rfl, rfl⟩ := prefix_of_encodeUtf8 htext.symm
    obtain ⟨hblank, hr⟩ := (jsonLoads_append_iff hload _).mp hp
    refine ⟨fun b hb => ?_, Json.obj.inj hr⟩
    obtain ⟨c, hc, hbc⟩ := List.mem_flatMap.mp hb
    obtain ⟨b', hb', hblank'⟩ := utf8EncodeChar_of_isJsonSpace (hblank c hc)
    rw [hb', List.mem_singleton] at hbc
    rw [hbc]
    exact hblank'
  · rintro ⟨hrest, rfl⟩
    obtain ⟨p, q, rfl, hq, rfl⟩ := encodeUtf8_append_blank hrest htext.symm
    exact ⟨p, rfl, (jsonLoads_append_iff hload _).mpr ⟨hq, rfl⟩, htype⟩

end CommandListener

/-! ## Segments -/

/-- All the client sends. -/
def Connection.whole (c : Connection) : Bytes := c.segments.flatten

/-- **The text has arrived**: what the first `recv` of 1024 bytes does not return is
whitespace. -/
def Connection.ArrivesWhole (c : Connection) : Prop :=
  ∀ b ∈ c.whole.drop (c.recv 1024).length, isBlankByte b = true

/-- `recv` returns a beginning of what the client sends. -/
theorem Connection.recv_append (c : Connection) (bufsize : ℕ) :
    c.recv bufsize ++ c.whole.drop (c.recv bufsize).length = c.whole := by
  have hprefix : c.recv bufsize <+: c.whole := by
    refine (List.take_prefix _ _).trans ?_
    have happend := List.take_append_drop (max c.arrived 1) c.segments
    rw [Connection.whole, ← happend, List.flatten_append, happend]
    exact List.prefix_append _ _
  exact List.prefix_append_drop hprefix |>.symm

namespace CommandListener

/-- Each client sends the text of a request, in whatever segments. -/
def Send (cs : List Connection) (requests : List Dict) : Prop :=
  List.Forall₂ (fun c request => IsRequest c.whole request) cs requests

/-- **The requests are dispatched**, each exactly as `json.loads` gives it on its whole
text, in the order of their connections. -/
def DispatchesWhole (localIp : String) (decentoragePort : ℤ) (cs : List Connection)
    (requests : List Dict) : Prop :=
  ∃ w, (runForever localIp decentoragePort cs.length).eval ListenerWorld.exec ⟨cs, [], []⟩ =
    some (.ok (), w) ∧ w.workers = numbered 0 requests

/-- What is received is the request itself exactly when the text has arrived. -/
theorem isRequest_recv_iff {c : Connection} {request : Dict} (h : IsRequest c.whole request)
    (r : Dict) : IsRequest (c.recv 1024) r ↔ c.ArrivesWhole ∧ r = request := by
  rw [← c.recv_append 1024] at h
  exact isRequest_append_iff h r

/-- **The segmentation does not matter exactly when each text arrives whole**: the listener
reads once, so a part of a request that this `recv` does not return is lost, and the rest is
no JSON text. -/
theorem framing_iff (localIp : String) (decentoragePort : ℤ) {cs : List Connection}
    {requests : List Dict} (h : Send cs requests) :
    DispatchesWhole localIp decentoragePort cs requests ↔ ∀ c ∈ cs, c.ArrivesWhole := by
  obtain ⟨hlen, hget⟩ := List.forall₂_iff_get.mp h
  unfold DispatchesWhole
  rw [eval_runForever]
  constructor
  · rintro ⟨w, hw, -⟩ c hc
    obtain ⟨received, hall⟩ := requests_of_eval_acceptLoop hw
    obtain ⟨hlen', hget'⟩ := List.forall₂_iff_get.mp hall
    obtain ⟨i, hi, rfl⟩ := List.getElem_of_mem hc
    exact ((isRequest_recv_iff (hget i hi (hlen ▸ hi)) _).mp (hget' i hi (hlen' ▸ hi))).1
  · intro hwhole
    have hall : List.Forall₂ (fun c r => IsRequest (c.recv 1024) r) cs requests := by
      refine List.forall₂_iff_get.mpr ⟨hlen, fun i hi hi' => ?_⟩
      exact (isRequest_recv_iff (hget i hi hi') _).mpr ⟨hwhole _ (List.getElem_mem hi), rfl⟩
    exact ⟨_, eval_acceptLoop hall [] [], rfl⟩

/-- An audit. -/
def auditRequest : Dict := [("type", .str "audit"), ("shard_id", .str "s"), ("salt", .str "x")]

/-- Its text in two segments, cut after the type; both have arrived. -/
def auditClient : Connection :=
  { segments := [encodeUtf8 ((Json.obj auditRequest).text.take 17),
      encodeUtf8 ((Json.obj auditRequest).text.drop 17)]
    arrived := 2 }

theorem auditClient_sends : IsRequest auditClient.whole auditRequest := by
  refine ⟨(Json.obj auditRequest).text, ?_, ?_, by decide⟩
  · have happend : ∀ a b, encodeUtf8 a ++ encodeUtf8 b = encodeUtf8 (a ++ b) := by
      simp [encodeUtf8]
    simp only [Connection.whole, auditClient, List.flatten_cons, List.flatten_nil, List.append_nil]
    rw [happend, List.take_append_drop]
  · refine jsonLoads_text ?_
    simp [Json.WF, WFDict, auditRequest]

/-- It is dispatched. -/
theorem framing_auditClient : DispatchesWhole "" 50000 [auditClient] [auditRequest] := by
  refine (framing_iff "" 50000 (.cons auditClient_sends .nil)).mpr fun c hc => ?_
  rw [List.mem_singleton.mp hc]
  have hrecv : auditClient.recv 1024 = auditClient.whole := by decide +kernel
  rw [Connection.ArrivesWhole, hrecv, List.drop_length]
  exact fun b hb => absurd hb List.not_mem_nil

/-- **One request, two runs**: with both segments there it is dispatched, with only the
first one the listener ends. -/
theorem segmented_request_ends_listener :
    Send [{ auditClient with arrived := 1 }] [auditRequest] ∧
      ¬ DispatchesWhole "" 50000 [{ auditClient with arrived := 1 }] [auditRequest] := by
  refine ⟨.cons auditClient_sends .nil, ?_⟩
  rintro ⟨w, hw, -⟩
  rw [eval_runForever] at hw
  obtain ⟨received, hall⟩ := requests_of_eval_acceptLoop hw
  cases hall with
  | cons hc _ =>
      have hmissing := ((isRequest_recv_iff (c := { auditClient with arrived := 1 })
        auditClient_sends _).mp hc).1
      -- the second segment starts with a comma
      have hcomma : (44 : UInt8) ∈ auditClient.whole.drop
          (Connection.recv { auditClient with arrived := 1 } 1024).length := by decide +kernel
      exact absurd (hmissing 44 hcomma) (by decide)

end CommandListener
