/-
# The location header of a response

A response is a status line and header lines `name:` OWS value OWS CRLF.  The search for the
location goes through it with a regular expression that wants one space after a colon and
takes everything up to the line break, so it reads another grammar.

* `HeaderLine`, `SsdpResponse` : the grammar;
* `SsdpResponse.location` : the value of the first header named `location`;
* `matchHeader_line`, `FindsHeaders` : what `findall` finds in one line, and in all;
* `locationOf_eq` : the header the code takes and what it takes of it;
* `location_header_iff` : when that is the value of the first such header;
* `no_space_no_location` : a header without white space is not seen.
-/
import StorageNode.SsdpScan

/-! ## The grammar -/

/-- Optional white space: spaces and tabs. -/
def isOws (c : Char) : Bool := c == ' ' || c == '\t'

/-- A control character. -/
def isControl (c : Char) : Bool := decide (c.toNat < 32) || decide (c.toNat = 127)

/-- Without surrounding white space. -/
def stripOws (s : Text) : Text := (s.dropWhile isOws).rdropWhile isOws

/-- The end of a line. -/
def crlf : Text := ['\r', '\n']

/-- **A header line.** -/
structure HeaderLine where
  name : Text
  lead : Text
  value : Text
  trail : Text
  name_plain : ∀ c ∈ name, c ≠ ':' ∧ isControl c = false
  lead_ows : ∀ c ∈ lead, isOws c = true
  value_plain : ∀ c ∈ value, c ≠ '\r' ∧ c ≠ '\n'
  trail_ows : ∀ c ∈ trail, isOws c = true

namespace HeaderLine

variable (h : HeaderLine)

/-- What stands between the colon and the end of the line. -/
def field : Text := h.lead ++ h.value ++ h.trail

/-- The line. -/
def text : Text := h.name ++ ':' :: h.field ++ crlf

/-- The name is `location`, in any case. -/
def isLocation : Bool := decide (UrlParse.lower h.name = "location".toList)

/-- A space follows the colon. -/
def spaced : Bool := decide (h.field.head? = some ' ')

end HeaderLine

/-- **A response**: a status line without a colon that a space follows, header lines, and
perhaps an empty line. -/
structure SsdpResponse where
  statusLine : Text
  headers : List HeaderLine
  ended : Bool
  status_plain : ¬ [':', ' '] <:+: statusLine

namespace SsdpResponse

variable (r : SsdpResponse)

def text : Text :=
  r.statusLine ++ crlf ++ (r.headers.flatMap HeaderLine.text ++ if r.ended then crlf else [])

/-- **The location of a response**: the value of the first header of that name. -/
def location : Option Text := (r.headers.find? HeaderLine.isLocation).map fun h => stripOws h.value

/-- The first location header in which a space follows the colon. -/
def firstSpaced : Option HeaderLine := r.headers.find? fun h => h.isLocation && h.spaced

/-- **What the location must look like**: behind the space of the first location header that
has one stands the value of the first location header, and nothing else. -/
def SpaceSeparated : Prop :=
  ∀ h, r.headers.find? HeaderLine.isLocation = some h →
    ∃ h', r.firstSpaced = some h' ∧ h'.field = ' ' :: stripOws h.value

end SsdpResponse

/-! ## One match -/

/-- A value that is complete. -/
theorem matchValue_line {value : Text} (hvalue : ∀ c ∈ value, c ≠ '\r' ∧ c ≠ '\n') (rest : Text) :
    matchValue (value ++ crlf ++ rest) = some (value, rest) := by
  induction value with
  | nil => rfl
  | cons c value ih =>
      rw [List.forall_mem_cons] at hvalue
      have hstep : matchValue (c :: (value ++ crlf ++ rest)) =
          (matchValue (value ++ crlf ++ rest)).map fun m => (c :: m.1, m.2) := by
        rw [matchValue]
        · rintro rest' h -
          exact hvalue.1.1 h
        · exact hvalue.1.2
      rw [List.cons_append, List.cons_append, hstep, ih hvalue.2, Option.map_some]

/-- A line goes on when the name cannot end here. -/
theorem matchHeader_cons {c : Char} {rest : Text} (hc : c ≠ '\n')
    (hhere : ¬ (c = ':' ∧ rest.head? = some ' ')) :
    matchHeader (c :: rest) = (matchHeader rest).map fun m => ((c :: m.1.1, m.1.2), m.2) := by
  simp only [matchHeader, if_neg hhere, if_neg hc]

/-- There is no match in a line without a colon that a space follows. -/
theorem matchHeader_none {line : Text} (hline : ¬ [':', ' '] <:+: line) (rest : Text) :
    matchHeader (line ++ '\n' :: rest) = none := by
  induction line with
  | nil => simp [matchHeader]
  | cons c line ih =>
      have hhere : ¬ (c = ':' ∧ (line ++ '\n' :: rest).head? = some ' ') := by
        rintro ⟨rfl, hhead⟩
        cases line with
        | nil => exact absurd hhead (by simp)
        | cons d line =>
            obtain rfl := Option.some.inj hhead
            exact hline ⟨[], line, rfl⟩
      have hnext := ih fun h => hline (h.trans (List.suffix_cons c line).isInfix)
      rw [List.cons_append]
      by_cases hc : c = '\n'
      · simp only [matchHeader, if_neg hhere, if_pos hc]
      · rw [matchHeader_cons hc hhere, hnext, Option.map_none]

/-- **The match in a line**: the name ends at the first colon that a space follows. -/
theorem matchHeader_line {name value : Text} (hname : ¬ [':', ' '] <:+: name)
    (hbreak : '\n' ∉ name) (hvalue : ∀ c ∈ value, c ≠ '\r' ∧ c ≠ '\n') (rest : Text) :
    matchHeader (name ++ ':' :: ' ' :: (value ++ crlf ++ rest)) = some ((name, value), rest) := by
  induction name with
  | nil =>
      have hhere : (':' = ':' ∧ (' ' :: (value ++ crlf ++ rest)).head? = some ' ') := ⟨rfl, rfl⟩
      rw [List.nil_append, matchHeader, if_pos hhere, List.drop_one, List.tail_cons,
        matchValue_line hvalue]
      rfl
  | cons c name ih =>
      have hhere : ¬ (c = ':' ∧ (name ++ ':' :: ' ' :: (value ++ crlf ++ rest)).head? =
          some ' ') := by
        rintro ⟨rfl, hhead⟩
        cases name with
        | nil => exact absurd hhead (by simp)
        | cons d name =>
            obtain rfl := Option.some.inj hhead
            exact hname ⟨[], name, rfl⟩
      rw [List.mem_cons, not_or] at hbreak
      have hnext := ih (fun h => hname (h.trans (List.suffix_cons c name).isInfix)) hbreak.2
      rw [List.cons_append, matchHeader_cons (Ne.symm hbreak.1) hhere, hnext, Option.map_some]

/-! ## All matches -/

/-- With enough fuel `findall` finds these headers. -/
def FindsHeaders (text : Text) (headers : List (Text × Text)) : Prop :=
  ∀ fuel, text.length ≤ fuel → findHeaders fuel text = headers

theorem findsHeaders_nil : FindsHeaders [] [] := by
  intro fuel _
  cases fuel with
  | zero => rfl
  | succ fuel => simp [findHeaders, matchHeader]

theorem findHeaders_none {fuel : ℕ} {c : Char} {rest : Text} (h : matchHeader (c :: rest) = none) :
    findHeaders (fuel + 1) (c :: rest) = findHeaders fuel rest := by
  simp only [findHeaders, h]

theorem findHeaders_some {fuel : ℕ} {text rest : Text} {header : Text × Text}
    (h : matchHeader text = some (header, rest)) :
    findHeaders (fuel + 1) text = header :: findHeaders fuel rest := by
  simp only [findHeaders, h]

/-- A line without a match is passed over. -/
theorem FindsHeaders.skip {line rest : Text} {headers : List (Text × Text)}
    (hline : ¬ [':', ' '] <:+: line) (h : FindsHeaders rest headers) :
    FindsHeaders (line ++ '\n' :: rest) headers := by
  induction line with
  | nil =>
      intro fuel hfuel
      cases fuel with
      | zero => exact absurd hfuel (by simp)
      | succ fuel =>
          have hnone : matchHeader ('\n' :: rest) = none := matchHeader_none hline rest
          rw [List.nil_append, findHeaders_none hnone]
          exact h fuel (by simpa using hfuel)
  | cons c line ih =>
      intro fuel hfuel
      cases fuel with
      | zero => exact absurd hfuel (by simp)
      | succ fuel =>
          have hnone : matchHeader (c :: (line ++ '\n' :: rest)) = none :=
            matchHeader_none hline rest
          have hnext := ih fun h => hline (h.trans (List.suffix_cons c line).isInfix)
          rw [List.cons_append, findHeaders_none hnone]
          exact hnext fuel (by simpa using hfuel)

/-- A line with a match is one header. -/
theorem FindsHeaders.line {name value rest : Text} {headers : List (Text × Text)}
    (hname : ¬ [':', ' '] <:+: name) (hbreak : '\n' ∉ name)
    (hvalue : ∀ c ∈ value, c ≠ '\r' ∧ c ≠ '\n') (h : FindsHeaders rest headers) :
    FindsHeaders (name ++ ':' :: ' ' :: (value ++ crlf ++ rest)) ((name, value) :: headers) := by
  intro fuel hfuel
  cases fuel with
  | zero => exact absurd hfuel (by simp)
  | succ fuel =>
      have hlength : rest.length ≤ fuel := by
        simp only [List.length_append, List.length_cons] at hfuel
        omega
      rw [findHeaders_some (matchHeader_line hname hbreak hvalue rest), h fuel hlength]

/-- The first colon that a space follows. -/
theorem exists_first_separator {line : Text} (h : [':', ' '] <:+: line) :
    ∃ name value, line = name ++ ':' :: ' ' :: value ∧ ¬ [':', ' '] <:+: name := by
  induction line with
  | nil => exact absurd h (by decide)
  | cons c line ih =>
      by_cases hrest : [':', ' '] <:+: line
      · obtain ⟨name, value, rfl, hname⟩ := ih hrest
        by_cases hfirst : [':', ' '] <:+: c :: name
        · -- the separator starts with the first character
          obtain ⟨value', hvalue⟩ : [':', ' '] <+: c :: name :=
            (List.infix_cons_iff.mp hfirst).resolve_right hname
          refine ⟨[], value' ++ ':' :: ' ' :: value, ?_, by decide⟩
          rw [← List.cons_append, ← hvalue]
          rfl
        · exact ⟨c :: name, value, rfl, hfirst⟩
      · obtain ⟨value, hvalue⟩ := (List.infix_cons_iff.mp h).resolve_right hrest
        exact ⟨[], value, hvalue.symm, by decide⟩

/-- A line break completes no separator. -/
theorem no_separator_break {line : Text} (h : ¬ [':', ' '] <:+: line) :
    ¬ [':', ' '] <:+: line ++ ['\r'] := by
  rw [List.infix_concat_iff, not_or]
  refine ⟨?_, h⟩
  rintro ⟨front, heq⟩
  have hlast := congrArg List.getLast? heq
  rw [List.getLast?_append, List.getLast?_append] at hlast
  exact absurd hlast (by simp)

/-! ## One header line -/

/-- The test of `_extract_location`. -/
def isLocationName (header : Text × Text) : Bool := decide (UrlParse.lower header.1 = "location".toList)

/-- A name with a colon is another name. -/
theorem not_location_of_colon {name value : Text} (h : ':' ∈ name) :
    isLocationName (name, value) = false := by
  rw [isLocationName, decide_eq_false_iff_not]
  intro heq
  have hmem : Char.toLower ':' ∈ UrlParse.lower name := List.mem_map_of_mem h
  rw [heq] at hmem
  exact absurd hmem (by decide)

namespace HeaderLine

variable (h : HeaderLine)

theorem isOws_plain {c : Char} (hc : isOws c = true) : c ≠ '\r' ∧ c ≠ '\n' := by
  refine ⟨?_, ?_⟩
  · rintro rfl
    exact absurd hc (by decide)
  · rintro rfl
    exact absurd hc (by decide)

theorem field_plain : ∀ c ∈ h.field, c ≠ '\r' ∧ c ≠ '\n' := by
  intro c hc
  rcases List.mem_append.mp hc with hc | hc
  · rcases List.mem_append.mp hc with hc | hc
    · exact isOws_plain (h.lead_ows c hc)
    · exact h.value_plain c hc
  · exact isOws_plain (h.trail_ows c hc)

theorem name_no_break : ∀ c ∈ h.name, c ≠ '\r' ∧ c ≠ '\n' := by
  intro c hc
  have hcontrol := (h.name_plain c hc).2
  refine ⟨?_, ?_⟩
  · rintro rfl
    exact absurd hcontrol (by decide)
  · rintro rfl
    exact absurd hcontrol (by decide)

/-- A name contains no separator. -/
theorem name_no_separator : ¬ [':', ' '] <:+: h.name := by
  intro hin
  exact (h.name_plain ':' (hin.subset List.mem_cons_self)).1 rfl

theorem field_of_spaced (hspaced : h.spaced = true) : h.field = ' ' :: h.field.drop 1 := by
  rw [spaced, decide_eq_true_eq] at hspaced
  rw [List.drop_one]
  exact (List.cons_head?_tail hspaced).symm

/-- Where a separator is when no space follows the first colon. -/
theorem separator_in_field (hspaced : h.spaced = false) {name value : Text}
    (hsplit : h.name ++ ':' :: h.field = name ++ ':' :: ' ' :: value) :
    ∃ front, name = h.name ++ ':' :: front ∧ h.field = front ++ ':' :: ' ' :: value := by
  have hfirst : h.field ≠ ' ' :: value := by
    intro heq
    rw [spaced, heq, decide_eq_false_iff_not] at hspaced
    exact hspaced rfl
  rcases List.append_eq_append_iff.mp hsplit with ⟨front, hname, hfield⟩ | ⟨back, hname, hfield⟩
  · cases front with
    | nil => exact absurd (List.cons.inj hfield).2 hfirst
    | cons c front =>
        obtain ⟨rfl, hrest⟩ := List.cons.inj hfield
        exact ⟨front, hname, hrest⟩
  · cases back with
    | nil => exact absurd (List.cons.inj hfield).2.symm hfirst
    | cons c back =>
        obtain ⟨rfl, -⟩ := List.cons.inj hfield
        have hmem : ':' ∈ h.name := by
          rw [hname]
          exact List.mem_append_right _ List.mem_cons_self
        exact absurd rfl (h.name_plain ':' hmem).1

/-- **What is found in a header line**: its location when a space follows the colon, and no
location otherwise. -/
theorem finds : ∃ found : List (Text × Text),
    (∀ rest headers, FindsHeaders rest headers → FindsHeaders (h.text ++ rest) (found ++ headers)) ∧
      (found.filter isLocationName).map Prod.snd =
        if h.isLocation && h.spaced then [h.field.drop 1] else [] := by
  have hfield := h.field_plain
  have hname := h.name_no_separator
  have hbreak : '\n' ∉ h.name := fun hin => (h.name_no_break _ hin).2 rfl
  cases hspaced : h.spaced with
  | true =>
      obtain ⟨value, hvalue⟩ : ∃ value, h.field = ' ' :: value := ⟨_, h.field_of_spaced hspaced⟩
      rw [hvalue, List.forall_mem_cons] at hfield
      refine ⟨[(h.name, value)], fun rest headers hrest => ?_, ?_⟩
      · have hline := hrest.line hname hbreak hfield.2
        rw [text, hvalue]
        simpa using hline
      · rw [hvalue, Bool.and_true, List.drop_one, List.tail_cons, List.filter_singleton]
        have hsame : isLocationName (h.name, value) = h.isLocation := rfl
        rw [hsame]
        cases h.isLocation <;> rfl
  | false =>
      rw [Bool.and_false]
      by_cases hin : [':', ' '] <:+: h.name ++ ':' :: h.field
      · -- the name that is found goes beyond the first colon
        obtain ⟨name, value, hsplit, hfirst⟩ := exists_first_separator hin
        obtain ⟨front, rfl, hfront⟩ := h.separator_in_field hspaced hsplit
        rw [hfront] at hfield
        have hcolon : ':' ∈ h.name ++ ':' :: front :=
          List.mem_append_right _ List.mem_cons_self
        have hvalue : ∀ c ∈ value, c ≠ '\r' ∧ c ≠ '\n' := fun c hc =>
          hfield c (List.mem_append_right _ (List.mem_cons_of_mem _ (List.mem_cons_of_mem _ hc)))
        have hbreak' : '\n' ∉ h.name ++ ':' :: front := by
          rw [List.mem_append, List.mem_cons, not_or, not_or]
          exact ⟨hbreak, by decide, fun hc => (hfield _ (List.mem_append_left _ hc)).2 rfl⟩
        refine ⟨[(h.name ++ ':' :: front, value)], fun rest headers hrest => ?_, ?_⟩
        · have hline := hrest.line hfirst hbreak' hvalue
          rw [text, hsplit]
          simpa using hline
        · rw [List.filter_singleton, not_location_of_colon hcolon]
          rfl
      · refine ⟨[], fun rest headers hrest => ?_, rfl⟩
        have hskip := hrest.skip (no_separator_break hin)
        rw [text]
        simpa [crlf] using hskip

end HeaderLine

/-! ## All header lines -/

/-- What is found in some header lines and what follows them. -/
theorem finds_headers (hs : List HeaderLine) : ∃ found : List (Text × Text),
    (∀ rest headers, FindsHeaders rest headers →
      FindsHeaders (hs.flatMap HeaderLine.text ++ rest) (found ++ headers)) ∧
      (found.filter isLocationName).map Prod.snd =
        (hs.filter fun h => h.isLocation && h.spaced).map fun h => h.field.drop 1 := by
  induction hs with
  | nil => exact ⟨[], fun rest headers hrest => hrest, rfl⟩
  | cons h hs ih =>
      obtain ⟨first, hfirst, hfirst'⟩ := h.finds
      obtain ⟨found, hfound, hfound'⟩ := ih
      refine ⟨first ++ found, fun rest headers hrest => ?_, ?_⟩
      · rw [List.flatMap_cons, List.append_assoc, List.append_assoc]
        exact hfirst _ _ (hfound _ _ hrest)
      · rw [List.filter_append, List.map_append, hfirst', hfound', List.filter_cons]
        cases h.isLocation && h.spaced <;> rfl

theorem no_separator_return : ¬ [':', ' '] <:+: ['\r'] := by decide

namespace SsdpResponse

variable (r : SsdpResponse)

/-- An empty line is no header. -/
theorem finds_end : FindsHeaders (if r.ended then crlf else []) [] := by
  cases r.ended with
  | true => exact FindsHeaders.skip no_separator_return findsHeaders_nil
  | false => exact findsHeaders_nil

/-- **What the code takes**: of the first location header in which a space follows the colon,
everything behind that space. -/
theorem locationOf_eq {raw : Bytes} (hraw : decodeIgnore raw = r.text) :
    locationOf raw = r.firstSpaced.map fun h => h.field.drop 1 := by
  obtain ⟨found, hfound, hfound'⟩ := finds_headers r.headers
  have hheaders := hfound _ _ r.finds_end
  have hall := hheaders.skip (no_separator_break r.status_plain)
  have htext : r.statusLine ++ ['\r'] ++ '\n' ::
      (r.headers.flatMap HeaderLine.text ++ if r.ended then crlf else []) = r.text := by
    simp [text, crlf]
  rw [htext, List.append_nil] at hall
  have hheadersOf : headersOf (decodeIgnore raw) = found := by
    rw [hraw]
    exact hall _ (Nat.le_succ _)
  have hfilter : (found.filter fun header =>
      UrlParse.lower header.1 = "location".toList) = found.filter isLocationName := rfl
  rw [locationOf, hheadersOf, hfilter, hfound', firstSpaced, List.head?_map, List.head?_filter]

theorem firstSpaced_spaced {h : HeaderLine} (hfirst : r.firstSpaced = some h) : h.spaced = true := by
  have hfound := List.find?_some hfirst
  exact (Bool.and_eq_true _ _ ▸ hfound).2

/-- **When the location is found.**  For every response: the two functions return the value of
the first header named `location`, without surrounding white space, and nothing when there is
no such header, exactly when behind the space of the first location header that has one stands
the value of the first location header. -/
theorem location_header_iff (r : SsdpResponse) (raw : Bytes) (hraw : decodeIgnore raw = r.text) :
    (SSDPScanner.extractLocation raw = r.location ∧
        LegacyGatewayDiscovery.parseLocationHeader raw = r.location) ↔ r.SpaceSeparated := by
  have hcode := r.locationOf_eq hraw
  have hboth : (SSDPScanner.extractLocation raw = r.location ∧
      LegacyGatewayDiscovery.parseLocationHeader raw = r.location) ↔ locationOf raw = r.location :=
    and_self_iff
  rw [hboth, hcode, location, SpaceSeparated]
  cases hfirst : r.headers.find? HeaderLine.isLocation with
  | none =>
      have hspaced : r.firstSpaced = none := by
        rw [firstSpaced, List.find?_eq_none]
        intro h hh
        rw [Bool.and_eq_true]
        exact fun hand => List.find?_eq_none.mp hfirst h hh hand.1
      rw [hspaced]
      exact ⟨fun _ h hh => absurd hh (by simp), fun _ => rfl⟩
  | some h =>
      rw [Option.map_some, Option.map_eq_some_iff]
      constructor
      · rintro ⟨h', hspaced, hdrop⟩ h₁ hh₁
        obtain rfl := Option.some.inj hh₁
        exact ⟨h', hspaced, by rw [← hdrop]; exact (h'.field_of_spaced (r.firstSpaced_spaced hspaced))⟩
      · intro hcond
        obtain ⟨h', hspaced, hfield⟩ := hcond h rfl
        exact ⟨h', hspaced, by rw [hfield]; rfl⟩

end SsdpResponse

/-! ## Responses as bytes -/

/-- The UTF-8 encoding of a text. -/
def encodeText (text : Text) : Bytes := text.flatMap String.utf8EncodeChar

theorem decodeIgnoring_encode (fuel : ℕ) (text : Text) (hfuel : (encodeText text).length ≤ fuel) :
    decodeIgnoring fuel (encodeText text) = text := by
  induction text generalizing fuel with
  | nil => cases fuel <;> rfl
  | cons c text ih =>
      have hsize : (String.utf8EncodeChar c).length = c.utf8Size := String.length_utf8EncodeChar c
      have hpos := c.utf8Size_pos
      have hcons : encodeText (c :: text) = String.utf8EncodeChar c ++ encodeText text := rfl
      rw [hcons] at hfuel ⊢
      rw [List.length_append, hsize] at hfuel
      cases fuel with
      | zero => omega
      | succ fuel =>
          have hne : String.utf8EncodeChar c ++ encodeText text ≠ [] := by
            intro h
            have := congrArg List.length h
            rw [List.length_append, hsize, List.length_nil] at this
            omega
          have hfirst : (String.utf8EncodeChar c ++ encodeText text).toByteArray.utf8DecodeChar? 0 =
              some c := by
            rw [List.toByteArray_append]
            exact ByteArray.utf8DecodeChar?_utf8EncodeChar_append
          have hrest : (String.utf8EncodeChar c ++ encodeText text).drop c.utf8Size =
              encodeText text := by
            rw [← hsize, List.drop_left]
          rw [decodeIgnoring, if_neg hne, hfirst]
          show c :: decodeIgnoring fuel ((String.utf8EncodeChar c ++ encodeText text).drop _) = _
          rw [hrest, ih fuel (by omega)]

/-- **Every text is what its encoding is decoded to.** -/
theorem decodeIgnore_encode (text : Text) : decodeIgnore (encodeText text) = text :=
  decodeIgnoring_encode _ text le_rfl

/-! ## A header without white space -/

theorem ok_status : ¬ [':', ' '] <:+: "HTTP/1.1 200 OK".toList := by decide

/-- A condition on the characters of a text, evaluated. -/
theorem forall_of_all {P : Char → Prop} [DecidablePred P] {s : Text}
    (h : (s.all fun c => decide (P c)) = true) : ∀ c ∈ s, P c :=
  fun c hc => of_decide_eq_true (List.all_eq_true.mp h c hc)

theorem location_name : ∀ c ∈ "LOCATION".toList, c ≠ ':' ∧ isControl c = false :=
  forall_of_all (by decide +kernel)

theorem router_value : ∀ c ∈ "http://192.168.1.1/r.xml".toList, c ≠ '\r' ∧ c ≠ '\n' :=
  forall_of_all (by decide +kernel)

theorem ows_nil : ∀ c ∈ ([] : Text), isOws c = true := List.forall_mem_nil _

theorem ows_space : ∀ c ∈ [' '], isOws c = true := forall_of_all (by decide)

/-- `LOCATION:http://192.168.1.1/r.xml` -/
def bareHeader : HeaderLine :=
  ⟨"LOCATION".toList, [], "http://192.168.1.1/r.xml".toList, [], location_name, ows_nil, router_value,
    ows_nil⟩

/-- `LOCATION: http://192.168.1.1/r.xml` -/
def spacedHeader : HeaderLine :=
  ⟨"LOCATION".toList, [' '], "http://192.168.1.1/r.xml".toList, [], location_name, ows_space,
    router_value, ows_nil⟩

/-- A response with the headers. -/
def okResponse (headers : List HeaderLine) : SsdpResponse :=
  ⟨"HTTP/1.1 200 OK".toList, headers, true, ok_status⟩

/-- **A header without white space is not seen.** -/
theorem no_space_no_location :
    ¬ ∀ (r : SsdpResponse) (raw : Bytes), decodeIgnore raw = r.text →
      SSDPScanner.extractLocation raw = r.location ∧
        LegacyGatewayDiscovery.parseLocationHeader raw = r.location := by
  intro h
  have hcode := (okResponse [bareHeader]).locationOf_eq (decodeIgnore_encode _)
  have hspec := (h (okResponse [bareHeader]) _ (decodeIgnore_encode _)).1
  have heq : (okResponse [bareHeader]).firstSpaced.map (fun h => h.field.drop 1) =
      (okResponse [bareHeader]).location := hcode.symm.trans hspec
  exact absurd heq (by decide +kernel)

theorem server_name : ∀ c ∈ "Server".toList, c ≠ ':' ∧ isControl c = false :=
  forall_of_all (by decide +kernel)

theorem server_value : ∀ c ∈ "router: 1.0".toList, c ≠ '\r' ∧ c ≠ '\n' :=
  forall_of_all (by decide +kernel)

theorem ows_mixed : ∀ c ∈ [' ', '\t'], isOws c = true := forall_of_all (by decide)

/-- `Server: router: 1.0` -/
def serverHeader : HeaderLine :=
  ⟨"Server".toList, [' '], "router: 1.0".toList, [], server_name, ows_space, server_value, ows_nil⟩

/-- `location:`, white space, `http://10.0.0.1/`, white space -/
def laterHeader : HeaderLine :=
  ⟨"location".toList, [' ', '\t'], "http://10.0.0.1/".toList, [' '],
    forall_of_all (by decide +kernel), ows_mixed, forall_of_all (by decide +kernel), ows_space⟩

/-- The theorem at a response with another header, a location header with one space and a
second location header: the two functions return the value of the first one. -/
theorem location_header_one_space :
    SSDPScanner.extractLocation
        (encodeText (okResponse [serverHeader, spacedHeader, laterHeader]).text) =
      some "http://192.168.1.1/r.xml".toList ∧
    LegacyGatewayDiscovery.parseLocationHeader
        (encodeText (okResponse [serverHeader, spacedHeader, laterHeader]).text) =
      some "http://192.168.1.1/r.xml".toList := by
  have hfirst : (okResponse [serverHeader, spacedHeader, laterHeader]).headers.find?
      HeaderLine.isLocation = some spacedHeader := rfl
  have hspaced : (okResponse [serverHeader, spacedHeader, laterHeader]).SpaceSeparated := by
    intro h hh
    obtain rfl : spacedHeader = h := Option.some.inj (hfirst.symm.trans hh)
    exact ⟨spacedHeader, rfl, by decide +kernel⟩
  exact (SsdpResponse.location_header_iff _ _ (decodeIgnore_encode _)).mpr hspaced
