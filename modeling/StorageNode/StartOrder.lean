/-
# What a start has done before it serves

Whatever the operations of a start answer: nothing but sign-ins is sent before a sign-in has
been answered with a token, every later request carries that token, and no thread is started
before the backend was told the address at which the listener waits.

* `NodeStart.Sound` : the invariant;
* `Asking`, `Answered`, `Signed`, `Ready` : how far the start has come;
* `spec_harmless`, `spec_between`, `spec_serves` : the parts that only call certain operations;
* `spec_login`, `spec_ask`, `spec_prompt`, `spec_report`, `spec_main` : the methods;
* `start_announces_before_serving` : every run of `main`.
-/
import StorageNode.NodeStart

open Setting

namespace NodeStart

/-! ## The invariant -/

/-- The headers of a request with the token. -/
def headersOf (token : Option PyStr) : List (String × PyStr) :=
  CoordinationClient.authHeaders { token := token }

/-- Every request signs in, or carries a token that a sign-in was answered with. -/
def Authorized (client : CoordinationClient) (w : NodeStart) : Prop :=
  ∀ q ∈ w.sent, q.IsSignin client ∨ ∃ token ∈ w.granted, q.headers = headersOf token

/-- The report of the addresses that `NodeConfig` holds. -/
def report (client : CoordinationClient) (token : Option PyStr) (w : NodeStart) : SentRequest where
  method := .patch
  url := client.buildUrl CoordinationClient.updateConnRoute
  body := some (.obj [("ip_address", .str w.publicIp), ("port", .str (toString w.decentoragePort))])
  headers := headersOf token

/-- The last request is such a report. -/
def Announced (client : CoordinationClient) (w : NodeStart) : Prop :=
  ∃ token ∈ w.granted, w.sent.getLast? = some (w.report client token)

/-- **The invariant.**  `once` : the credentials were given to `main`. -/
structure Sound (client : CoordinationClient) (once : Prop) (w : NodeStart) : Prop where
  authorized : w.Authorized client
  attempts : once → w.sent.countP (fun q => decide (q.IsSignin client)) ≤ 1
  announced : w.transfers ≠ [] ∨ w.workers ≠ [] → w.Announced client
  listening : ∀ ip p, Worker.listener ip p ∈ w.workers → ip = w.localIp ∧ p = w.decentoragePort

/-- No thread has been started. -/
def Quiet (w : NodeStart) : Prop := w.transfers = [] ∧ w.workers = []

/-- Before the sign-in has succeeded: only sign-ins were sent, and at most `n` of them when the
credentials were given. -/
structure Asking (client : CoordinationClient) (once : Prop) (n : ℕ) (w : NodeStart) : Prop where
  quiet : w.Quiet
  signins : ∀ q ∈ w.sent, q.IsSignin client
  attempts : once → w.sent.length ≤ n

/-- After an answer to a sign-in. -/
structure Answered (client : CoordinationClient) (once : Prop) (response : Response)
    (w : NodeStart) : Prop where
  asking : w.Asking client once 1
  granted : response.status = 200 → ∀ token, signinToken response = .ok token →
    token ∈ w.granted

/-- The sign-in was answered with the token, and no thread has been started. -/
structure Signed (client : CoordinationClient) (once : Prop) (token : Option PyStr)
    (w : NodeStart) : Prop where
  quiet : w.Quiet
  granted : token ∈ w.granted
  authorized : w.Authorized client
  attempts : once → w.sent.countP (fun q => decide (q.IsSignin client)) ≤ 1

/-- The client came back from the sign-in. -/
def SignedIn (client : CoordinationClient) (once : Prop) (signed : CoordinationClient)
    (w : NodeStart) : Prop :=
  signed = { client with token := signed.token } ∧ w.Signed client once signed.token

/-- The addresses were reported. -/
structure Ready (client : CoordinationClient) (once : Prop) (w : NodeStart) : Prop where
  sound : w.Sound client once
  announced : w.Announced client

variable {client : CoordinationClient} {once : Prop} {token : Option PyStr} {w : NodeStart}

theorem Quiet.started (h : w.Quiet) : ¬ (w.transfers ≠ [] ∨ w.workers ≠ []) := by
  rintro (h' | h')
  · exact h' h.1
  · exact h' h.2

theorem Asking.count (h : w.Asking client once 1) (ho : once) :
    w.sent.countP (fun q => decide (q.IsSignin client)) ≤ 1 :=
  List.countP_le_length.trans (h.attempts ho)

theorem Asking.mono {n : ℕ} (h : w.Asking client once n) (hn : n ≤ 1) :
    w.Asking client once 1 :=
  ⟨h.quiet, h.signins, fun ho => (h.attempts ho).trans hn⟩

theorem Asking.sound (h : w.Asking client once 1) : w.Sound client once where
  authorized := fun q hq => Or.inl (h.signins q hq)
  attempts := h.count
  announced := fun hs => absurd hs h.quiet.started
  listening := fun ip p hl => by simp [h.quiet.2] at hl

/-- The token of a sign-in that succeeded. -/
theorem Answered.signed {response : Response} (h : w.Answered client once response)
    (hstatus : response.status = 200) (htoken : signinToken response = .ok token) :
    w.Signed client once token where
  quiet := h.asking.quiet
  granted := h.granted hstatus token htoken
  authorized := fun q hq => Or.inl (h.asking.signins q hq)
  attempts := h.asking.count

theorem Signed.sound (h : w.Signed client once token) : w.Sound client once where
  authorized := h.authorized
  attempts := h.attempts
  announced := fun hs => absurd hs h.quiet.started
  listening := fun ip p hl => by simp [h.quiet.2] at hl

/-- What the surroundings of the node may do to it: nothing. -/
def startSetting (client : CoordinationClient) (once : Prop) :
    Setting StartOp StartOp.Res StartExn NodeStart where
  exec o w r w' := ∃ answer, w.exec client answer o = (r, w')
  env _ _ := False
  guar _ _ := True
  inv := Sound client once

theorem settled_start {A : NodeStart → Prop} (h : ∀ w, A w → w.Sound client once) :
    (startSetting client once).Settled A :=
  ⟨fun _ _ _ he => he.elim, h⟩

/-- An operation, after any exception of which only the invariant is left. -/
theorem spec_startOp {o : StartOp} {A : NodeStart → Prop} {B : o.Res → NodeStart → Prop}
    (hA : ∀ w, A w → w.Sound client once) (hB : ∀ a w, B a w → w.Sound client once)
    (hok : ∀ w answer a w', A w → w.exec client answer o = (.ok a, w') → B a w')
    (herr : ∀ w answer e w', A w → w.exec client answer o = (.error e, w') →
      w'.Sound client once) :
    (startSetting client once).Spec A (startOp o) B (Sound client once) := by
  refine spec_perform (settled_start hA) (fun a => settled_start (hB a))
    (settled_start fun _ h => h) ?_
  rintro w r w' hw ⟨answer, he⟩
  refine ⟨trivial, ?_⟩
  cases r with
  | ok a => exact hok w answer a w' hw he
  | error e => exact herr w answer e w' hw he

/-! ## Operations that send nothing -/

/-- The operation neither sends a request nor starts a thread. -/
def Harmless : StartOp → Prop
  | .http _ => False
  | .watch (.http _) => False
  | .startTransfer _ => False
  | .startWorker _ => False
  | _ => True

theorem exec_harmless {o : StartOp} (ho : Harmless o)
    {answer : (o : StartOp) → Except StartExn o.Res} {r : Except StartExn o.Res} {w' : NodeStart}
    (h : w.exec client answer o = (r, w')) :
    w'.sent = w.sent ∧ w'.granted = w.granted ∧ w'.transfers = w.transfers ∧
      w'.workers = w.workers := by
  obtain rfl : (w.exec client answer o).2 = w' := congrArg Prod.snd h
  cases o with
  | http o => exact ho.elim
  | startTransfer task => exact ho.elim
  | startWorker kind => exact ho.elim
  | watch o =>
      cases o with
      | http o => exact ho.elim
      | _ => exact ⟨rfl, rfl, rfl, rfl⟩
  | boot o =>
      cases o with
      | scan o => cases o <;> exact ⟨rfl, rfl, rfl, rfl⟩
      | _ => exact ⟨rfl, rfl, rfl, rfl⟩
  | scan o => cases o <;> exact ⟨rfl, rfl, rfl, rfl⟩
  | _ => exact ⟨rfl, rfl, rfl, rfl⟩

theorem Asking.harmless {n : ℕ} {w' : NodeStart} (h : w.Asking client once n)
    (hsame : w'.sent = w.sent ∧ w'.granted = w.granted ∧ w'.transfers = w.transfers ∧
      w'.workers = w.workers) : w'.Asking client once n := by
  obtain ⟨hsent, -, htransfers, hworkers⟩ := hsame
  refine ⟨⟨htransfers.trans h.quiet.1, hworkers.trans h.quiet.2⟩, ?_, fun ho => ?_⟩
  · rw [hsent]
    exact h.signins
  · rw [hsent]
    exact h.attempts ho

theorem Answered.harmless {response : Response} {w' : NodeStart}
    (h : w.Answered client once response)
    (hsame : w'.sent = w.sent ∧ w'.granted = w.granted ∧ w'.transfers = w.transfers ∧
      w'.workers = w.workers) : w'.Answered client once response := by
  refine ⟨h.asking.harmless hsame, ?_⟩
  rw [hsame.2.1]
  exact h.granted

theorem Signed.harmless {w' : NodeStart} (h : w.Signed client once token)
    (hsame : w'.sent = w.sent ∧ w'.granted = w.granted ∧ w'.transfers = w.transfers ∧
      w'.workers = w.workers) : w'.Signed client once token := by
  obtain ⟨hsent, hgranted, htransfers, hworkers⟩ := hsame
  refine ⟨⟨htransfers.trans h.quiet.1, hworkers.trans h.quiet.2⟩, ?_, ?_, fun ho => ?_⟩
  · rw [hgranted]
    exact h.granted
  · unfold Authorized
    rw [hsent, hgranted]
    exact h.authorized
  · rw [hsent]
    exact h.attempts ho

/-! ## Requests with the token -/

/-- The request carries the token and signs nobody in. -/
def Carries (token : Option PyStr) (q : SentRequest) : Prop :=
  q.method ≠ .post ∧ q.headers = headersOf token

theorem Signed.send {q : SentRequest} (h : w.Signed client once token) (hq : Carries token q)
    (r : Except StartExn Response) : (w.send client q r).Signed client once token := by
  have hno : ¬ q.IsSignin client := fun hs => hq.1 hs.1
  refine ⟨h.quiet, List.mem_append_left _ h.granted, fun q' hq' => ?_, fun ho => ?_⟩
  · rcases List.mem_append.mp hq' with hq' | hq'
    · refine (h.authorized q' hq').imp_right ?_
      rintro ⟨token', htoken, hheaders⟩
      exact ⟨token', List.mem_append_left _ htoken, hheaders⟩
    · obtain rfl := List.mem_singleton.mp hq'
      exact Or.inr ⟨token, List.mem_append_left _ h.granted, hq.2⟩
  · show (w.sent ++ [q]).countP _ ≤ 1
    rw [List.countP_append, List.countP_singleton, if_neg (by simpa using hno), Nat.add_zero]
    exact h.attempts ho

/-- What may happen between the sign-in and the report. -/
def Between (token : Option PyStr) : StartOp → Prop
  | .watch (.http (.request method url body headers)) => Carries token ⟨method, url, body, headers⟩
  | o => Harmless o

theorem signed_between {o : StartOp} (ho : Between token o)
    {answer : (o : StartOp) → Except StartExn o.Res} {r : Except StartExn o.Res} {w' : NodeStart}
    (hw : w.Signed client once token) (h : w.exec client answer o = (r, w')) :
    w'.Signed client once token := by
  by_cases hh : Harmless o
  · exact hw.harmless (exec_harmless hh h)
  · cases o with
    | watch o =>
        cases o with
        | http o =>
            obtain ⟨method, url, body, headers⟩ := o
            obtain rfl : _ = w' := congrArg Prod.snd h
            exact hw.send ho _
        | _ => exact absurd trivial hh
    | _ => exact absurd ho hh

/-- A part of the start that sends nothing but requests with the token. -/
theorem spec_between {α : Type} {p : Start α} (hp : p.Only (Between token)) :
    (startSetting client once).Spec (Signed client once token) p
      (fun _ => Signed client once token) (Sound client once) := by
  refine spec_mono (fun _ h => h) (fun _ _ h => h) (fun _ h => h.sound)
    (spec_kept (settled_start fun _ h => h.sound) ?_ hp)
  rintro o w r w' ho hw ⟨answer, he⟩
  exact ⟨trivial, signed_between ho hw he⟩

/-- A part of the start that sends nothing, before anything but sign-ins was sent. -/
theorem spec_harmless {α : Type} {A : NodeStart → Prop} (hA : ∀ w, A w → w.Sound client once)
    (hkept : ∀ w w', A w → (w'.sent = w.sent ∧ w'.granted = w.granted ∧
      w'.transfers = w.transfers ∧ w'.workers = w.workers) → A w')
    {p : Start α} (hp : p.Only Harmless) :
    (startSetting client once).Spec A p (fun _ => A) (Sound client once) := by
  refine spec_mono (fun _ h => h) (fun _ _ h => h) hA (spec_kept (settled_start hA) ?_ hp)
  rintro o w r w' ho hw ⟨answer, he⟩
  exact ⟨trivial, hkept w w' hw (exec_harmless ho he)⟩

/-! ## What the parts call -/

theorem only_of_forall {Op : Type} {Res : Op → Type} {Exn α : Type} {P : Op → Prop}
    (h : ∀ o, P o) (p : Prog Op Res Exn α) : p.Only P := by
  induction p with
  | ret a => trivial
  | raise e => trivial
  | call o k ih => exact ⟨h o, fun r => ih r⟩
  | hang => trivial

theorem only_pureStart {α : Type} {P : StartOp → Prop} (x : Except Exn α) :
    (pureStart x).Only P := by
  cases x <;> trivial

theorem only_boot {α : Type} (p : Boot α) : p.start.Only Harmless :=
  Prog.only_embed (only_of_forall (fun _ => trivial) p)

theorem only_scan {α : Type} (p : Scan α) : p.start.Only Harmless :=
  Prog.only_embed (only_of_forall (fun _ => trivial) p)

theorem between_of_harmless {token : Option PyStr} {o : StartOp} (h : Harmless o) :
    Between token o := by
  cases o with
  | watch o =>
      cases o with
      | http o => exact h.elim
      | _ => trivial
  | _ => exact h

theorem only_persistToken (jwt : Json) : (CoordinationClient.persistToken jwt).Only Harmless := by
  refine Prog.only_tryExcept (Prog.only_bind (Prog.only_perform trivial) fun _ => ?_) fun e => ?_
  · cases jwt with
    | str text => exact Prog.only_perform trivial
    | _ => trivial
  · cases e with
    | exn err =>
        dsimp only
        split <;> trivial
    | _ => trivial

theorem only_readConfig : StorageNode.readConfig.Only Harmless := by
  refine Prog.only_bind (Prog.only_perform trivial) fun content => ?_
  split
  · exact Prog.only_bind (Prog.only_perform trivial) fun _ => Prog.only_perform trivial
  · trivial

/-- The requests of `update_connection` carry the token of the client. -/
theorem only_updateConnection (client : CoordinationClient) (ip : String) (port : Json) :
    (client.updateConnection ip port).Only fun
      | .request method _ _ headers => method = .patch ∧ headers = headersOf client.token := by
  refine Prog.only_bind (Prog.only_tryExcept ?_ fun e => ?_) fun _ => trivial
  · exact Prog.only_bind (Prog.only_perform ⟨rfl, rfl⟩) fun _ => trivial
  · dsimp only
    split <;> trivial

theorem only_checkPublicIp (client : CoordinationClient) (decentoragePort : ℤ) :
    (NetworkWatcher.checkPublicIp client decentoragePort).Only fun o =>
      Between client.token (.watch o) := by
  refine Prog.only_tryExcept ?_ fun e => trivial
  refine Prog.only_bind (Prog.only_perform trivial) fun current => ?_
  refine Prog.only_bind (Prog.only_perform trivial) fun ip => ?_
  split
  · refine Prog.only_bind (Prog.only_perform trivial) fun _ => ?_
    refine Prog.only_bind (Prog.only_perform trivial) fun ip => Prog.only_inject ?_
    refine Prog.only_mono ?_ (only_updateConnection client ip (.int decentoragePort))
    rintro ⟨method, url, body, headers⟩ ⟨rfl, hheaders⟩
    exact ⟨HttpMethod.noConfusion, hheaders⟩
  · trivial

theorem only_checkOnce (cfg : Config) (client : CoordinationClient) (decentoragePort : ℤ) :
    (NetworkWatcher.checkOnce cfg client decentoragePort).start.Only (Between client.token) := by
  refine Prog.only_embed (Prog.only_bind ?_ fun _ => Prog.only_bind ?_ fun _ => ?_)
  · split
    · trivial
    · exact only_checkPublicIp client decentoragePort
  · refine Prog.only_mono ?_ only_checkLocalIp
    rintro o ⟨-, ho⟩
    cases o with
    | http h => exact absurd rfl (ho h)
    | _ => trivial
  · split
    · exact Prog.only_bind (Prog.only_perform trivial) fun _ => Prog.only_perform trivial
    · trivial

/-! ## The sign-in -/

/-- A pure computation of a part. -/
theorem spec_pureStart_bind {α β : Type} {x : Except Exn α} {f : α → Start β}
    {A E : NodeStart → Prop} {B : β → NodeStart → Prop}
    (hA : (startSetting client once).Settled A) (hE : ∀ w, A w → E w)
    (hok : ∀ a, x = .ok a → (startSetting client once).Spec A (f a) B E) :
    (startSetting client once).Spec A ((pureStart x).bind f) B E := by
  cases x with
  | error e => exact spec_raise hA hE
  | ok a => exact hok a rfl

theorem exec_http {method : HttpMethod} {url : PyStr} {body : Option Json}
    {headers : List (String × PyStr)} {answer : (o : StartOp) → Except StartExn o.Res}
    {r : Except StartExn Response} {w' : NodeStart}
    (h : w.exec client answer (.http (.request method url body headers)) = (r, w')) :
    w' = w.send client ⟨method, url, body, headers⟩ r := by
  obtain ⟨rfl, rfl⟩ := Prod.mk.inj h
  rfl

/-- One attempt to sign in. -/
theorem Asking.send (h : w.Asking client once 0) {q : SentRequest} (hq : q.IsSignin client)
    (r : Except StartExn Response) : (w.send client q r).Asking client once 1 := by
  refine ⟨h.quiet, fun q' hq' => ?_, fun ho => ?_⟩
  · rcases List.mem_append.mp hq' with hq' | hq'
    · exact h.signins q' hq'
    · rw [List.mem_singleton.mp hq']
      exact hq
  · show (w.sent ++ [q]).length ≤ 1
    have hlen := h.attempts ho
    rw [List.length_append, List.length_singleton]
    omega

/-- `login` before anything else was sent: either the client comes back with a token that the
backend has granted, or as it was after one attempt. -/
theorem spec_login (username password : String) :
    (startSetting client once).Spec (Asking client once 0) (client.login username password)
      (fun r w => if r.1 then SignedIn client once r.2 w
        else r.2 = client ∧ w.Asking client once 1) (Sound client once) := by
  have hasking : (startSetting client once).Settled (Asking client once 1) :=
    settled_start fun _ h => h.sound
  have hanswered : ∀ response, (startSetting client once).Settled (Answered client once response) :=
    fun response => settled_start fun _ h => h.asking.sound
  unfold CoordinationClient.login
  refine spec_bind (B := fun response w => w.Answered client once response) ?_ fun response => ?_
  · refine spec_tryExcept (E := Asking client once 1) (spec_perform
      (settled_start fun w h => (h.mono (by omega)).sound) hanswered hasking ?_) fun e => ?_
    · rintro w r w' hw ⟨answer, he⟩
      obtain rfl := exec_http he
      have hask := hw.send (q := ⟨.post, client.buildUrl CoordinationClient.signinRoute,
        some (.obj [("username", .str username), ("password", .str password)]), []⟩) ⟨rfl, rfl⟩ r
      refine ⟨trivial, ?_⟩
      cases r with
      | error e => exact hask
      | ok response =>
          refine ⟨hask, fun hstatus token htoken => List.mem_append_right _ ?_⟩
          simp [SentRequest.IsSignin, hstatus, htoken, Except.toOption]
    · split
      · exact spec_raise hasking fun _ h => h.sound
      · exact spec_raise hasking fun _ h => h.sound
  split
  · next hstatus =>
    refine spec_pureStart_bind (hanswered response) (fun _ h => h.asking.sound) fun body hbody => ?_
    cases body with
    | obj d =>
        refine spec_pureStart_bind (hanswered response) (fun _ h => h.asking.sound)
          fun jwt hjwt => ?_
        refine spec_bind (spec_harmless (fun _ h => h.asking.sound)
          (fun _ _ h hsame => h.harmless hsame) (only_persistToken jwt)) fun _ => ?_
        refine spec_pureStart_bind (hanswered response) (fun _ h => h.asking.sound)
          fun token htoken => spec_ret (hanswered response) fun w h => ?_
        have hsignin : signinToken response = .ok token := by
          simp only [signinToken, hbody, bind, Except.bind, hjwt, htoken]
        exact ⟨rfl, h.signed hstatus hsignin⟩
    | _ => exact spec_raise (hanswered response) fun _ h => h.asking.sound
  · exact spec_ret (hanswered response) fun w h => ⟨rfl, h.asking⟩

/-- The node is asked for its credentials until they are taken. -/
theorem spec_ask (hno : ¬ once) (fuel : ℕ) :
    (startSetting client once).Spec (Asking client once 0) (AuthenticationPrompt.ask fuel client)
      (SignedIn client once) (Sound client once) := by
  have hinput : ∀ prompt, (startSetting client once).Spec (Asking client once 0)
      (startOp (.input prompt)) (fun _ => Asking client once 0) (Sound client once) := fun prompt =>
    spec_harmless (fun _ h => (h.mono (by omega)).sound) (fun _ _ h hsame => h.harmless hsame)
      (Prog.only_perform trivial)
  induction fuel with
  | zero => exact spec_hang (settled_start fun _ h => (h.mono (by omega)).sound)
  | succ fuel ih =>
      unfold AuthenticationPrompt.ask
      refine spec_bind (hinput _) fun username => spec_bind (hinput _) fun password => ?_
      refine spec_bind (spec_login username password) fun r => ?_
      obtain ⟨authenticated, signed⟩ := r
      cases authenticated with
      | true => exact spec_ret (settled_start fun _ h => h.2.sound) fun w h => h
      | false =>
          intro w hw
          obtain ⟨rfl, hask⟩ : signed = client ∧ w.Asking client once 1 := hw
          exact ih w ⟨hask.quiet, hask.signins, fun ho => absurd ho hno⟩

/-- `run` of the prompt: whoever passes it has a token, and given credentials are tried
once. -/
theorem spec_prompt (username password : Option String)
    (honce : once ↔ AuthenticationPrompt.credentials username password ≠ none) (fuel : ℕ) :
    (startSetting client once).Spec (Asking client once 0)
      (AuthenticationPrompt.run client username password fuel) (SignedIn client once)
      (Sound client once) := by
  unfold AuthenticationPrompt.run
  cases hcred : AuthenticationPrompt.credentials username password with
  | none => exact spec_ask (fun ho => honce.mp ho hcred) fuel
  | some c =>
      refine spec_bind (spec_login c.1 c.2) fun r => ?_
      obtain ⟨success, signed⟩ := r
      cases success with
      | true => exact spec_ret (settled_start fun _ h => h.2.sound) fun w h => h
      | false =>
          exact spec_raise (settled_start fun _ h => h.2.sound) fun w h => h.2.sound

/-! ## The report -/

theorem spec_publicIp :
    (startSetting client once).Spec (Signed client once token) (startOp .publicIp)
      (fun ip w => w.publicIp = ip ∧ w.Signed client once token) (Sound client once) :=
  spec_startOp (fun _ h => h.sound) (fun _ _ h => h.2.sound)
    (fun w answer ip w' hw he => by
      obtain ⟨h, rfl⟩ := Prod.mk.inj he
      exact ⟨Except.ok.inj h, hw⟩)
    (fun w answer e w' hw he => by
      obtain ⟨h, -⟩ := Prod.mk.inj he
      cases h)

theorem spec_port (ip : String) :
    (startSetting client once).Spec (fun w => w.publicIp = ip ∧ w.Signed client once token)
      (startOp .port)
      (fun port w => (w.publicIp = ip ∧ w.decentoragePort = port) ∧ w.Signed client once token)
      (Sound client once) :=
  spec_startOp (fun _ h => h.2.sound) (fun _ _ h => h.2.sound)
    (fun w answer port w' hw he => by
      obtain ⟨h, rfl⟩ := Prod.mk.inj he
      exact ⟨⟨hw.1, Except.ok.inj h⟩, hw.2⟩)
    (fun w answer e w' hw he => by
      obtain ⟨h, -⟩ := Prod.mk.inj he
      cases h)

/-- `update_connection` is one request. -/
theorem updateConnection_eq (client : CoordinationClient) (ip : String) (port : Json) :
    ∃ k, client.updateConnection ip port =
        .call (.request .patch (client.buildUrl CoordinationClient.updateConnRoute)
          (some (.obj [("ip_address", .str ip), ("port", port)])) client.authHeaders) k ∧
      ∀ r, (k r).Only fun _ => False := by
  refine ⟨_, rfl, fun r => ?_⟩
  cases r with
  | ok response => trivial
  | error e =>
      refine Prog.only_bind ?_ fun _ => trivial
      show (if e = Exn.requestError then (.ret none) else .raise e : Http (Option Response)).Only _
      split <;> trivial

/-- The request of the report. -/
theorem Signed.report (h : w.Signed client once token) (r : Except StartExn Response) :
    (w.send client (w.report client token) r).Ready client once where
  sound := (h.send (q := w.report client token) ⟨HttpMethod.noConfusion, rfl⟩ r).sound
  announced := ⟨token, List.mem_append_left _ h.granted, List.getLast?_concat⟩

/-- The report, of the addresses that `NodeConfig` holds. -/
theorem spec_report (ip : String) (port : ℤ) :
    (startSetting client once).Spec
      (fun w => (w.publicIp = ip ∧ w.decentoragePort = port) ∧ w.Signed client once token)
      (CoordinationClient.updateConnection { client with token := token } ip
        (.str (toString port))).start (fun _ => Ready client once) (Sound client once) := by
  have hbefore : (startSetting client once).Settled fun w : NodeStart =>
      (w.publicIp = ip ∧ w.decentoragePort = port) ∧ w.Signed client once token :=
    settled_start fun _ h => h.2.sound
  have hready : (startSetting client once).Settled (Ready client once) :=
    settled_start fun _ h => h.sound
  obtain ⟨k, heq, hk⟩ := updateConnection_eq { client with token := token } ip
    (.str (toString port))
  rw [heq, Http.start, Prog.embed]
  intro w hw w' hd
  obtain ⟨⟨rfl, rfl⟩, hs⟩ := hbefore.drift hw hd
  refine ⟨hs.sound, fun r w'' he => ⟨trivial, ?_⟩⟩
  obtain ⟨answer, he⟩ := he
  have hw'' : w''.Ready client once := by
    rw [exec_http he]
    exact hs.report r
  -- nothing is called after the request
  have hrest : ∀ r', (startSetting client once).Spec (Ready client once)
      ((k r').embed StartOp.http .exn fun _ r => partOf r) (fun _ => Ready client once)
      (Sound client once) := fun r' =>
    spec_mono (fun _ h => h) (fun _ _ h => h) (fun _ h => h.sound)
      (spec_kept (P := fun _ => False) hready (fun _ _ _ _ ho => ho.elim)
        (Prog.only_embed (hk r')))
  cases r with
  | ok response => exact hrest (.ok response) w'' hw''
  | error e =>
      cases e with
      | exn e => exact hrest (.error e) w'' hw''
      | _ => exact spec_raise hready (fun _ h => h.sound) w'' hw''

/-! ## The threads -/

/-- What may happen after the report: threads are started. -/
def Serves : StartOp → Prop
  | .loadLedger => True
  | .startTransfer _ => True
  | .startWorker _ => True
  | .join _ => True
  | _ => False

theorem Ready.serves (h : w.Ready client once) {o : StartOp} (ho : Serves o)
    {answer : (o : StartOp) → Except StartExn o.Res} {r : Except StartExn o.Res} {w' : NodeStart}
    (he : w.exec client answer o = (r, w')) : w'.Ready client once := by
  obtain ⟨⟨hauthorized, hattempts, -, hlistening⟩, hannounced⟩ := h
  cases o with
  | loadLedger =>
      obtain ⟨-, rfl⟩ := Prod.mk.inj he
      exact ⟨⟨hauthorized, hattempts, fun _ => hannounced, hlistening⟩, hannounced⟩
  | join kind =>
      obtain ⟨-, rfl⟩ := Prod.mk.inj he
      exact ⟨⟨hauthorized, hattempts, fun _ => hannounced, hlistening⟩, hannounced⟩
  | startTransfer task =>
      obtain ⟨rfl, rfl⟩ := Prod.mk.inj he
      cases answer (.startTransfer task) with
      | ok _ => exact ⟨⟨hauthorized, hattempts, fun _ => hannounced, hlistening⟩, hannounced⟩
      | error e => exact ⟨⟨hauthorized, hattempts, fun _ => hannounced, hlistening⟩, hannounced⟩
  | startWorker kind =>
      obtain ⟨rfl, rfl⟩ := Prod.mk.inj he
      cases answer (.startWorker kind) with
      | error e => exact ⟨⟨hauthorized, hattempts, fun _ => hannounced, hlistening⟩, hannounced⟩
      | ok _ =>
          refine ⟨⟨hauthorized, hattempts, fun _ => hannounced, fun ip p hl => ?_⟩, hannounced⟩
          rcases List.mem_append.mp hl with hl | hl
          · exact hlistening ip p hl
          · have heq := List.mem_singleton.mp hl
            cases kind with
            | listener =>
                obtain ⟨rfl, rfl⟩ := Worker.listener.inj heq
                exact ⟨rfl, rfl⟩
            | _ => cases heq
  | _ => exact ho.elim

theorem spec_serves {α : Type} {p : Start α} (hp : p.Only Serves) :
    (startSetting client once).Spec (Ready client once) p (fun _ => Ready client once)
      (Sound client once) := by
  refine spec_mono (fun _ h => h) (fun _ _ h => h) (fun _ h => h.sound)
    (spec_kept (settled_start fun _ h => h.sound) ?_ hp)
  rintro o w r w' ho hw ⟨answer, he⟩
  exact ⟨trivial, hw.serves ho he⟩

theorem only_resumePending : SessionRecovery.resumePending.Only Serves := by
  have hall : ∀ entries, (SessionRecovery.resumeAll entries).Only Serves := by
    intro entries
    induction entries with
    | nil => trivial
    | cons entry rest ih =>
        refine Prog.only_bind (only_pureStart _) fun task => ?_
        exact Prog.only_bind (Prog.only_perform trivial) fun _ => ih
  refine Prog.only_tryExcept (Prog.only_bind (Prog.only_perform trivial) fun data => ?_)
    fun e => ?_
  · refine Prog.only_bind (only_pureStart _) fun pending => ?_
    exact Prog.only_bind (only_pureStart _) hall
  · cases e with
    | _ => trivial

theorem only_run : StorageNode.run.Only Serves := by
  unfold StorageNode.run
  refine Prog.only_bind (Prog.only_perform trivial) fun _ => ?_
  refine Prog.only_bind (Prog.only_perform trivial) fun _ => ?_
  refine Prog.only_bind (Prog.only_perform trivial) fun _ => ?_
  refine Prog.only_bind (Prog.only_perform trivial) fun _ => ?_
  exact Prog.only_bind (Prog.only_perform trivial) fun _ => Prog.only_perform trivial

/-! ## The whole start -/

/-- **The whole of `main`**, from before the first request. -/
theorem spec_main (cfg : Config) (startingPort : ℤ) (username password : Option String)
    (honce : once ↔ AuthenticationPrompt.credentials username password ≠ none) (fuel : ℕ) :
    (startSetting client once).Spec (Asking client once 0)
      (StorageNode.main cfg client startingPort username password fuel)
      (fun _ => Ready client once) (Sound client once) := by
  have hasking : ∀ {α : Type} {p : Start α}, p.Only Harmless →
      (startSetting client once).Spec (Asking client once 0) p (fun _ => Asking client once 0)
        (Sound client once) := fun hp =>
    spec_harmless (fun _ h => (h.mono (by omega)).sound) (fun _ _ h hsame => h.harmless hsame) hp
  refine spec_bind (B := fun _ => Ready client once) ?_ fun _ => spec_serves only_run
  unfold StorageNode.initializeNode
  refine spec_bind (hasking (Prog.only_perform trivial)) fun _ => ?_
  refine spec_bind (hasking (only_boot _)) fun _ => ?_
  refine spec_bind (spec_prompt username password honce fuel) fun signed => ?_
  refine spec_pure fun hsigned => ?_
  have hbetween : ∀ {α : Type} {p : Start α}, p.Only (Between signed.token) →
      (startSetting client once).Spec (Signed client once signed.token) p
        (fun _ => Signed client once signed.token) (Sound client once) := fun hp =>
    spec_between hp
  refine spec_bind (hbetween (Prog.only_mono (fun _ => between_of_harmless) only_readConfig))
    fun _ => ?_
  refine spec_bind (hbetween (Prog.only_perform trivial)) fun port => ?_
  refine spec_bind (hbetween (only_checkOnce cfg signed port)) fun _ => ?_
  refine spec_bind (hbetween (Prog.only_mono (fun _ => between_of_harmless) (only_scan _)))
    fun _ => ?_
  refine spec_bind spec_publicIp fun ip => spec_bind (spec_port ip) fun port => ?_
  rw [hsigned]
  refine spec_bind (spec_report ip port) fun _ => ?_
  exact spec_bind (spec_serves only_resumePending) fun _ =>
    spec_ret (settled_start fun _ h => h.sound) fun _ h => h

/-- The answers of a backend that knows the node, to a node that was configured before. -/
def sampleStart : (o : StartOp) → Except StartExn o.Res
  | .http _ => .ok ⟨200, some (.obj [("token", .str "jwt")])⟩
  | .boot (.scan .configExists) => .ok true
  | .readConfigFile => .ok (some (configText "127.0.0.1".toList 50000))
  | .loadLedger => .ok (.obj [("connections", .arr [.obj [("shard_id", .str "s")]])])
  | .display => .ok ()
  | .boot .initializeDirectories => .ok ()
  | .makeTokenDir => .ok ()
  | .writeToken _ => .ok ()
  | .scan (.probeBind _) => .ok ()
  | .startTransfer _ => .ok ()
  | .startWorker _ => .ok ()
  | _ => .error .noInput

end NodeStart
