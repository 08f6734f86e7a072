/-
# The WAN service of a device description

`fetch_service_info` lists the `serviceType` elements of a description in document order and
takes the first one whose type is that of a WAN connection; the control URL is the first one
below the parent of that element.

* `elementsAmong` : the elements of a document, in document order;
* `DeviceDescription` : where service types and control URLs stand;
* `firstWanService` : the first WAN service with its own control URL;
* `Unnested`, `FirstUnnested` : nothing nested in the first WAN service comes before its own
  elements;
* `findService_children`, `findsFirst` : the search below an element, by induction on the tree;
* `fetchServiceInfo_first` : what `fetch_service_info` returns;
* `unnested_of_schema` : services that contain leaves only;
* `foreign_control_url` : a device nested in a service lends it its control URL.
-/
import StorageNode.LegacyPortForwarder

open GatewayProfileParser

/-! ## Elements -/

/-- The content of an element with this name. -/
def XmlNode.contentIf (name : Text) : XmlNode → Option (List XmlNode)
  | .element tagName childNodes => if tagName = name then some childNodes else none
  | .characterData _ => none

theorem XmlNode.contentIf_self {name : Text} {content : List XmlNode} :
    XmlNode.contentIf name (.element name content) = some content :=
  if_pos rfl

/-- The contents of the children with this name. -/
def childrenNamed (childNodes : List XmlNode) (name : Text) : List (List XmlNode) :=
  childNodes.filterMap (XmlNode.contentIf name)

mutual

/-- The elements at a node and below it, with their names, in document order. -/
def XmlNode.elements : XmlNode → List (Text × List XmlNode)
  | .characterData _ => []
  | .element tagName childNodes => (tagName, childNodes) :: elementsAmong childNodes

/-- The same for some of the children of a node. -/
def elementsAmong : List XmlNode → List (Text × List XmlNode)
  | [] => []
  | node :: rest => node.elements ++ elementsAmong rest

end

/-- A single text node that is not empty. -/
def IsText (content : List XmlNode) : Prop :=
  ∃ data, data ≠ [] ∧ content = [.characterData data]

/-- An element with a `serviceType` child is a `service` with one `controlURL` child, and both
contain a single text node that is not empty. -/
def ProperService (e : Text × List XmlNode) : Prop :=
  childrenNamed e.2 "serviceType".toList ≠ [] → e.1 = "service".toList ∧
    (∃ content, childrenNamed e.2 "controlURL".toList = [content] ∧ IsText content) ∧
    ∀ content ∈ childrenNamed e.2 "serviceType".toList, IsText content

/-- **A device description**: every `serviceType` element is a child of such a service. -/
structure DeviceDescription (document : List XmlNode) : Prop where
  root : childrenNamed document "serviceType".toList = []
  service : ∀ e ∈ elementsAmong document, ProperService e

/-! ## The first WAN service -/

/-- The type in a `serviceType` element, when it is that of a WAN connection. -/
def wanType (content : List XmlNode) : Option Text :=
  match content with
  | [.characterData data] => if isWan data then some data else none
  | _ => none

/-- The WAN type of a service. -/
def wanTypeOf (childNodes : List XmlNode) : Option Text :=
  (childrenNamed childNodes "serviceType".toList).findSome? wanType

/-- The text of the control URL of a service. -/
def controlUrlOf (childNodes : List XmlNode) : Option Text :=
  match childrenNamed childNodes "controlURL".toList with
  | [.characterData data] :: _ => some data
  | _ => none

/-- A WAN service with its own type and control URL. -/
def wanService (e : Text × List XmlNode) : Option GatewayService :=
  if e.1 = "service".toList then
    (wanTypeOf e.2).bind fun serviceType =>
      (controlUrlOf e.2).map fun controlPath => { controlPath, serviceType }
  else none

/-- **The first WAN service** in document order. -/
def firstWanService (document : List XmlNode) : Option GatewayService :=
  (elementsAmong document).findSome? wanService

/-- **Nothing nested comes first**: in a WAN service no other control URL precedes its own, and
no other WAN service precedes its first WAN type. -/
structure Unnested (childNodes : List XmlNode) : Prop where
  url : ∀ front content back,
    childNodes = front ++ .element "controlURL".toList content :: back →
    ∀ e ∈ elementsAmong front, e.1 ≠ "controlURL".toList
  type : ∀ front content back,
    childNodes = front ++ .element "serviceType".toList content :: back →
    (wanType content).isSome = true → wanTypeOf front = none →
    ∀ e ∈ elementsAmong front, wanService e = none

/-- Nothing nested comes first in the first WAN service of these elements. -/
def FirstUnnested (elements : List (Text × List XmlNode)) : Prop :=
  ∀ e, elements.find? (fun e => (wanService e).isSome) = some e → Unnested e.2

theorem firstUnnested_of_none {elements : List (Text × List XmlNode)}
    (h : ∀ e ∈ elements, wanService e = none) : FirstUnnested elements := by
  intro e he
  have hsome := List.find?_some he
  rw [h e (List.mem_of_find?_eq_some he)] at hsome
  cases hsome

theorem FirstUnnested.left {front back : List (Text × List XmlNode)}
    (h : FirstUnnested (front ++ back)) : FirstUnnested front := by
  intro e he
  refine h e ?_
  rw [List.find?_append, he]
  rfl

theorem FirstUnnested.right {front back : List (Text × List XmlNode)}
    (h : FirstUnnested (front ++ back)) (hfront : ∀ e ∈ front, wanService e = none) :
    FirstUnnested back := by
  intro e he
  refine h e ?_
  have hnone : front.find? (fun e => (wanService e).isSome) = none := by
    rw [List.find?_eq_none]
    intro d hd
    rw [hfront d hd]
    exact Bool.false_ne_true
  rw [List.find?_append, hnone, he]
  rfl

/-! ## Lists of nodes -/

theorem namedAmong_append (name : Text) (siblings front back : List XmlNode) :
    namedAmong name siblings (front ++ back) =
      namedAmong name siblings front ++ namedAmong name siblings back := by
  induction front with
  | nil => rfl
  | cons node front ih => rw [List.cons_append, namedAmong, namedAmong, ih, List.append_assoc]

theorem elementsAmong_append (front back : List XmlNode) :
    elementsAmong (front ++ back) = elementsAmong front ++ elementsAmong back := by
  induction front with
  | nil => rfl
  | cons node front ih =>
      rw [List.cons_append, elementsAmong, elementsAmong, ih, List.append_assoc]

mutual

/-- Nothing is listed when no element has the name. -/
theorem XmlNode.named_eq_nil {name : Text} (siblings : List XmlNode) : ∀ node : XmlNode,
    (∀ e ∈ node.elements, e.1 ≠ name) → node.named name siblings = []
  | .characterData _, _ => rfl
  | .element tagName childNodes, h => by
      rw [XmlNode.elements, List.forall_mem_cons] at h
      rw [XmlNode.named, if_neg h.1, namedAmong_eq_nil childNodes childNodes h.2, List.append_nil]

theorem namedAmong_eq_nil {name : Text} (siblings : List XmlNode) : ∀ nodes : List XmlNode,
    (∀ e ∈ elementsAmong nodes, e.1 ≠ name) → namedAmong name siblings nodes = []
  | [], _ => rfl
  | node :: rest, h => by
      rw [elementsAmong, List.forall_mem_append] at h
      rw [namedAmong, node.named_eq_nil siblings h.1, namedAmong_eq_nil siblings rest h.2,
        List.append_nil]

end

/-- Where a child with a name stands. -/
theorem exists_child_of_mem {name : Text} {childNodes content : List XmlNode}
    (h : content ∈ childrenNamed childNodes name) :
    ∃ front back, childNodes = front ++ .element name content :: back := by
  obtain ⟨node, hnode, heq⟩ := List.mem_filterMap.mp h
  obtain ⟨front, back, hsplit⟩ := List.append_of_mem hnode
  cases node with
  | characterData data => cases heq
  | element tagName childNodes =>
      rw [XmlNode.contentIf, Option.ite_none_right_eq_some, Option.some.injEq] at heq
      obtain ⟨rfl, rfl⟩ := heq
      exact ⟨front, back, hsplit⟩

theorem mem_childrenNamed {name : Text} {front content back : List XmlNode} :
    content ∈ childrenNamed (front ++ .element name content :: back) name := by
  refine List.mem_filterMap.mpr ⟨.element name content, ?_, XmlNode.contentIf_self⟩
  exact List.mem_append_right _ List.mem_cons_self

/-- **The control URL below a service** is its own when no other one precedes it. -/
theorem controlUrl_first {childNodes : List XmlNode} (hplain : Unnested childNodes)
    {content : List XmlNode}
    (hurl : childrenNamed childNodes "controlURL".toList = [content]) :
    ∃ siblings rest, getElementsByTagName childNodes "controlURL".toList =
      ⟨content, siblings⟩ :: rest := by
  have hmem : content ∈ childrenNamed childNodes "controlURL".toList := by
    rw [hurl]
    exact List.mem_cons_self
  obtain ⟨front, back, hsplit⟩ := exists_child_of_mem hmem
  have hfront := namedAmong_eq_nil childNodes front (hplain.url front content back hsplit)
  have hall : getElementsByTagName childNodes "controlURL".toList =
      namedAmong "controlURL".toList childNodes
        (front ++ .element "controlURL".toList content :: back) := by
    rw [← hsplit]
    rfl
  rw [hall, namedAmong_append, hfront, List.nil_append, namedAmong, XmlNode.named, if_pos rfl]
  exact ⟨_, _, rfl⟩

/-! ## The search -/

theorem findService_text {siblings : List XmlNode} {data : Text} {rest : List XmlElement} :
    findService (⟨[.characterData data], siblings⟩ :: rest) =
      if isWan data then
        match getElementsByTagName siblings "controlURL".toList with
        | [] => .error .indexError
        | ctrl :: _ => do
            let ctrlPath ← firstData ctrl.childNodes
            pure (some { controlPath := ctrlPath, serviceType := data })
      else findService rest := rfl

/-- The search goes on where nothing has been found. -/
theorem findService_append {front back : List XmlElement} {found last : Option GatewayService}
    (hfront : findService front = .ok found)
    (hback : found = none → findService back = .ok last) :
    findService (front ++ back) = .ok (found.or last) := by
  induction front with
  | nil =>
      obtain rfl := Except.ok.inj hfront
      exact hback rfl
  | cons node front ih =>
      rw [List.cons_append]
      rw [findService] at hfront ⊢
      cases htype : firstData node.childNodes with
      | error e =>
          rw [htype] at hfront
          cases hfront
      | ok typeString =>
          rw [htype, ok_bind] at hfront
          rw [ok_bind]
          by_cases hwan : isWan typeString = true
          · rw [if_pos hwan] at hfront ⊢
            cases found with
            | some service => exact hfront
            | none =>
                exfalso
                split at hfront
                · cases hfront
                · next ctrl others hctrl =>
                    cases hpath : firstData ctrl.childNodes with
                    | error e =>
                        rw [hpath] at hfront
                        cases hfront
                    | ok path =>
                        rw [hpath] at hfront
                        cases hfront
          · rw [if_neg hwan] at hfront ⊢
            exact ih hfront

section Children

variable {node : XmlNode} {rest content : List XmlNode} {data : Text}

theorem childrenNamed_type :
    childrenNamed (.element "serviceType".toList content :: rest) "serviceType".toList =
      content :: childrenNamed rest "serviceType".toList := by
  rw [childrenNamed, List.filterMap_cons, XmlNode.contentIf, if_pos rfl]
  rfl

theorem wanTypeOf_type :
    wanTypeOf (.element "serviceType".toList content :: rest) =
      (wanType content).or (wanTypeOf rest) := by
  rw [wanTypeOf, childrenNamed_type, List.findSome?_cons]
  cases wanType content <;> rfl

theorem childrenNamed_other (h : ∀ content, node ≠ .element "serviceType".toList content) :
    childrenNamed (node :: rest) "serviceType".toList =
      childrenNamed rest "serviceType".toList := by
  have hnone : XmlNode.contentIf "serviceType".toList node = none := by
    cases node with
    | characterData data => rfl
    | element tagName childNodes =>
        rw [XmlNode.contentIf, if_neg]
        rintro rfl
        exact h childNodes rfl
  rw [childrenNamed, List.filterMap_cons, hnone]
  rfl

theorem wanTypeOf_other (h : ∀ content, node ≠ .element "serviceType".toList content) :
    wanTypeOf (node :: rest) = wanTypeOf rest := by
  rw [wanTypeOf, childrenNamed_other h]
  rfl

/-- A service type with its text. -/
theorem named_type {siblings : List XmlNode} :
    XmlNode.named "serviceType".toList siblings
        (.element "serviceType".toList [.characterData data]) =
      [⟨[.characterData data], siblings⟩] := by
  rw [XmlNode.named, if_pos rfl]
  rfl

theorem elements_type :
    (XmlNode.element "serviceType".toList [.characterData data]).elements =
      [("serviceType".toList, [.characterData data])] := rfl

theorem wanService_type : wanService ("serviceType".toList, content) = none :=
  if_neg (show "serviceType".toList ≠ "service".toList by decide +kernel)

/-- The first WAN type among the children. -/
theorem exists_first_type {nodes : List XmlNode} {type : Text} (h : wanTypeOf nodes = some type) :
    ∃ front content back, nodes = front ++ .element "serviceType".toList content :: back ∧
      (wanType content).isSome = true ∧ wanTypeOf front = none := by
  induction nodes with
  | nil => cases h
  | cons node rest ih =>
      by_cases hst : ∃ content, node = .element "serviceType".toList content
      · obtain ⟨content, rfl⟩ := hst
        cases hwan : wanType content with
        | some data => exact ⟨[], content, rest, rfl, by rw [hwan]; rfl, rfl⟩
        | none =>
            rw [wanTypeOf_type, hwan, Option.none_or] at h
            obtain ⟨front, content', back, rfl, hsome, hnone⟩ := ih h
            refine ⟨_ :: front, content', back, rfl, hsome, ?_⟩
            rw [wanTypeOf_type, hwan, hnone]
            rfl
      · have hst' : ∀ content, node ≠ .element "serviceType".toList content :=
          fun content heq => hst ⟨content, heq⟩
        rw [wanTypeOf_other hst'] at h
        obtain ⟨front, content, back, rfl, hsome, hnone⟩ := ih h
        refine ⟨node :: front, content, back, rfl, hsome, ?_⟩
        rw [wanTypeOf_other hst', hnone]

end Children

/-- What a search among the children of an element relies on: their types are texts, a WAN type
comes with the control URL below the element, nothing nested comes before it, and the search
below each of them is right. -/
structure Searchable (childNodes : List XmlNode) (url : Text) (nodes : List XmlNode) : Prop where
  text : ∀ content ∈ childrenNamed nodes "serviceType".toList, IsText content
  ctrl : ∀ type, wanTypeOf nodes = some type → ∃ siblings rest,
    getElementsByTagName childNodes "controlURL".toList = ⟨[.characterData url], siblings⟩ :: rest
  type : ∀ front content back, nodes = front ++ .element "serviceType".toList content :: back →
    (wanType content).isSome = true → wanTypeOf front = none →
    ∀ e ∈ elementsAmong front, wanService e = none
  first : wanTypeOf nodes = none → FirstUnnested (elementsAmong nodes)
  below : ∀ node ∈ nodes, (∀ content, node ≠ .element "serviceType".toList content) →
    FirstUnnested node.elements → findService (node.named "serviceType".toList childNodes) =
      .ok (node.elements.findSome? wanService)

theorem wanType_of_none {childNodes : List XmlNode} (h : wanTypeOf childNodes = none) :
    ∀ content ∈ childrenNamed childNodes "serviceType".toList, wanType content = none :=
  List.findSome?_eq_none_iff.mp h

namespace Searchable

variable {childNodes nodes rest : List XmlNode} {url data : Text} {node : XmlNode}

/-- Without a WAN type no control URL is looked for. -/
theorem of_none (hwan : wanTypeOf nodes = none)
    (htext : ∀ content ∈ childrenNamed nodes "serviceType".toList, IsText content)
    (hfirst : FirstUnnested (elementsAmong nodes))
    (hbelow : ∀ node ∈ nodes, (∀ content, node ≠ .element "serviceType".toList content) →
      FirstUnnested node.elements → findService (node.named "serviceType".toList childNodes) =
        .ok (node.elements.findSome? wanService)) : Searchable childNodes [] nodes := by
  refine ⟨htext, fun type h => absurd (hwan.symm.trans h) (by simp), ?_, fun _ => hfirst, hbelow⟩
  intro front content back hsplit hsome
  have hmem : content ∈ childrenNamed nodes "serviceType".toList := by
    rw [hsplit]
    exact mem_childrenNamed
  rw [wanType_of_none hwan content hmem] at hsome
  cases hsome

/-- What comes before a type in the rest comes before it in the whole. -/
theorem type_tail (h : Searchable childNodes url (node :: rest))
    (hnode : ∀ front, wanTypeOf front = none → wanTypeOf (node :: front) = none) :
    ∀ front content back, rest = front ++ .element "serviceType".toList content :: back →
      (wanType content).isSome = true → wanTypeOf front = none →
      ∀ e ∈ elementsAmong front, wanService e = none := by
  intro front content back hsplit hwan hnone e he
  refine h.type (node :: front) content back (by rw [hsplit]; rfl) hwan (hnode front hnone) e ?_
  rw [elementsAmong]
  exact List.mem_append_right _ he

/-- Behind a type that is no WAN type. -/
theorem after_type (h : Searchable childNodes url
      (.element "serviceType".toList [.characterData data] :: rest))
    (hwan : wanType [.characterData data] = none) : Searchable childNodes url rest := by
  have hskip : ∀ nodes, wanTypeOf (.element "serviceType".toList [.characterData data] :: nodes) =
      wanTypeOf nodes := by
    intro nodes
    rw [wanTypeOf_type, hwan, Option.none_or]
  refine ⟨fun content hcontent => h.text content ?_, fun type htype => h.ctrl type ?_,
    h.type_tail fun front hnone => (hskip front).trans hnone, fun hnone => ?_,
    fun node hnode => h.below node (List.mem_cons_of_mem _ hnode)⟩
  · rw [childrenNamed_type]
    exact List.mem_cons_of_mem _ hcontent
  · rw [hskip, htype]
  · have hall := h.first ((hskip rest).trans hnone)
    rw [elementsAmong, elements_type] at hall
    exact hall.right (List.forall_mem_singleton.mpr wanService_type)

/-- Behind a node that is no type and in which nothing is found. -/
theorem after_other (h : Searchable childNodes url (node :: rest))
    (hst : ∀ content, node ≠ .element "serviceType".toList content)
    (hnone : node.elements.findSome? wanService = none) : Searchable childNodes url rest := by
  have hskip : ∀ nodes, wanTypeOf (node :: nodes) = wanTypeOf nodes := fun _ => wanTypeOf_other hst
  refine ⟨fun content hcontent => h.text content ?_, fun type htype => h.ctrl type ?_,
    h.type_tail fun front hfront => (hskip front).trans hfront, fun hwan => ?_,
    fun node hnode => h.below node (List.mem_cons_of_mem _ hnode)⟩
  · rwa [childrenNamed_other hst]
  · rw [hskip, htype]
  · have hall := h.first ((hskip rest).trans hwan)
    rw [elementsAmong] at hall
    exact hall.right (List.findSome?_eq_none_iff.mp hnone)

/-- Nothing nested comes before a WAN type. -/
theorem before_type (h : Searchable childNodes url (node :: rest))
    (hst : ∀ content, node ≠ .element "serviceType".toList content) {type : Text}
    (htype : wanTypeOf rest = some type) : ∀ e ∈ node.elements, wanService e = none := by
  obtain ⟨front, content, back, hsplit, hwan, hnone⟩ := exists_first_type htype
  intro e he
  refine h.type (node :: front) content back (by rw [hsplit]; rfl) hwan
    (by rw [wanTypeOf_other hst, hnone]) e ?_
  rw [elementsAmong]
  exact List.mem_append_left _ he

end Searchable

/-- **A search among the children of an element** finds their first WAN type with the control
URL below that element; without one it finds what is first found below the children. -/
theorem findService_children {childNodes : List XmlNode} {url : Text} {nodes : List XmlNode}
    (h : Searchable childNodes url nodes) :
    findService (namedAmong "serviceType".toList childNodes nodes) =
      .ok (((wanTypeOf nodes).map fun serviceType => GatewayService.mk url serviceType).or
        ((elementsAmong nodes).findSome? wanService)) := by
  induction nodes with
  | nil => rfl
  | cons node rest ih =>
      rw [namedAmong, elementsAmong, List.findSome?_append]
      by_cases hst : ∃ content, node = .element "serviceType".toList content
      · -- the node is a service type
        obtain ⟨content, rfl⟩ := hst
        obtain ⟨data, -, rfl⟩ := h.text content (by rw [childrenNamed_type]; exact List.mem_cons_self)
        rw [wanTypeOf_type, named_type, elements_type, List.findSome?_singleton, wanService_type,
          Option.none_or, List.cons_append, List.nil_append, findService_text]
        cases hwan : isWan data with
        | true =>
            have hfound : wanType [.characterData data] = some data := if_pos hwan
            obtain ⟨siblings, others, hctrl⟩ := h.ctrl data (by rw [wanTypeOf_type, hfound]; rfl)
            rw [hctrl, hfound]
            rfl
        | false =>
            have hfound : wanType [.characterData data] = none := by
              rw [wanType, hwan]
              rfl
            rw [hfound, Option.none_or]
            exact ih (h.after_type hfound)
      · -- the node is another element, or no element
        have hst' : ∀ content, node ≠ .element "serviceType".toList content :=
          fun content heq => hst ⟨content, heq⟩
        have hback := fun hnone => ih (h.after_other hst' hnone)
        have hbelow := h.below node List.mem_cons_self hst'
        rw [wanTypeOf_other hst']
        cases hfound : wanTypeOf rest with
        | none =>
            have hfirst := h.first ((wanTypeOf_other hst').trans hfound)
            rw [elementsAmong] at hfirst
            rw [hfound, Option.map_none, Option.none_or] at hback
            rw [Option.map_none, Option.none_or]
            exact findService_append (hbelow hfirst.left) hback
        | some type =>
            have hall := h.before_type hst' hfound
            have hnode := hbelow (firstUnnested_of_none hall)
            have hnone : node.elements.findSome? wanService = none :=
              List.findSome?_eq_none_iff.mpr hall
            rw [hnone] at hnode ⊢
            rw [hfound] at hback
            rw [findService_append hnode fun _ => hback hnone]
            rfl

/-! ## The whole document -/

/-- **The search below one element.** -/
theorem findService_below {e : Text × List XmlNode} (hdesc : ProperService e)
    (hfirst : FirstUnnested (e :: elementsAmong e.2))
    (hnodes : ∀ node ∈ e.2, (∀ content, node ≠ .element "serviceType".toList content) →
      FirstUnnested node.elements → findService (node.named "serviceType".toList e.2) =
        .ok (node.elements.findSome? wanService)) :
    findService (namedAmong "serviceType".toList e.2 e.2) =
      .ok ((e :: elementsAmong e.2).findSome? wanService) := by
  obtain ⟨tagName, childNodes⟩ := e
  have htext : ∀ content ∈ childrenNamed childNodes "serviceType".toList, IsText content :=
    fun content hcontent => (hdesc (List.ne_nil_of_mem hcontent)).2.2 content hcontent
  rw [List.findSome?_cons]
  cases hwan : wanTypeOf childNodes with
  | none =>
      have hnone : wanService (tagName, childNodes) = none := by
        rw [wanService, hwan]
        exact ite_self none
      have hrest : FirstUnnested ([(tagName, childNodes)] ++ elementsAmong childNodes) := hfirst
      have hsearch : Searchable childNodes [] childNodes :=
        .of_none hwan htext (hrest.right (List.forall_mem_singleton.mpr hnone)) hnodes
      have hfound := findService_children hsearch
      rw [hwan] at hfound
      rw [hnone]
      exact hfound
  | some type =>
      have hne : childrenNamed childNodes "serviceType".toList ≠ [] := by
        intro h
        rw [wanTypeOf, h] at hwan
        cases hwan
      obtain ⟨rfl, ⟨content, hcontent, data, -, rfl⟩, -⟩ := hdesc hne
      have hsome : wanService ("service".toList, childNodes) = some ⟨data, type⟩ := by
        have hurl : controlUrlOf childNodes = some data := by
          rw [controlUrlOf, hcontent]
        have hname : ("service".toList, childNodes).1 = "service".toList := rfl
        rw [wanService, if_pos hname, hwan, hurl]
        rfl
      have hplain : Unnested childNodes :=
        hfirst ("service".toList, childNodes) (by rw [List.find?_cons, hsome]; rfl)
      have hsearch : Searchable childNodes data childNodes :=
        ⟨htext, fun _ _ => controlUrl_first hplain hcontent, hplain.type,
          fun hnone => absurd (hwan.symm.trans hnone) (by simp), hnodes⟩
      have hfound := findService_children hsearch
      rw [hwan] at hfound
      rw [hsome]
      exact hfound

/-- The property of a node that the induction is about. -/
def FindsFirst (node : XmlNode) : Prop :=
  (∀ content, node ≠ .element "serviceType".toList content) →
    (∀ e ∈ node.elements, ProperService e) → FirstUnnested node.elements → ∀ siblings,
      findService (node.named "serviceType".toList siblings) =
        .ok (node.elements.findSome? wanService)

theorem elements_subset {node : XmlNode} {nodes : List XmlNode} (h : node ∈ nodes) :
    node.elements ⊆ elementsAmong nodes := by
  obtain ⟨front, back, rfl⟩ := List.append_of_mem h
  rw [elementsAmong_append, elementsAmong]
  exact fun e he => List.mem_append_right _ (List.mem_append_left _ he)

mutual

theorem findsFirst : ∀ node : XmlNode, FindsFirst node
  | .characterData _ => fun _ _ _ _ => rfl
  | .element tagName childNodes => by
      intro hother hdesc hfirst siblings
      rw [XmlNode.elements, List.forall_mem_cons] at hdesc
      rw [XmlNode.elements] at hfirst
      have hne : tagName ≠ "serviceType".toList := by
        rintro rfl
        exact hother childNodes rfl
      rw [XmlNode.named, if_neg hne, List.nil_append, XmlNode.elements]
      refine findService_below hdesc.1 hfirst fun node hnode hst hplain => ?_
      exact findsFirst_among childNodes node hnode hst
        (fun e he => hdesc.2 e (elements_subset hnode he)) hplain childNodes

theorem findsFirst_among : ∀ nodes : List XmlNode, ∀ node ∈ nodes, FindsFirst node
  | [] => List.forall_mem_nil _
  | first :: rest => List.forall_mem_cons.mpr ⟨findsFirst first, findsFirst_among rest⟩

end

/-- **`findService` on a description.** -/
theorem readProfile_first {document : List XmlNode} (hdesc : DeviceDescription document)
    (hplain : FirstUnnested (elementsAmong document)) :
    readProfile (some document) = .ok (firstWanService document) := by
  have hwan : wanTypeOf document = none := by
    rw [wanTypeOf, hdesc.root]
    rfl
  have htext : ∀ content ∈ childrenNamed document "serviceType".toList, IsText content := by
    rw [hdesc.root]
    exact List.forall_mem_nil _
  have hsearch : Searchable document [] document := by
    refine .of_none hwan htext hplain fun node hnode hst hfirst => ?_
    exact findsFirst node hst (fun e he => hdesc.service e (elements_subset hnode he)) hfirst
      document
  have hfound := findService_children hsearch
  rw [hwan] at hfound
  exact hfound

/-- There is a first WAN service when there is one at all. -/
theorem firstWanService_eq_none_iff {document : List XmlNode} (hdesc : DeviceDescription document) :
    firstWanService document = none ↔ ∀ e ∈ elementsAmong document, e.1 = "service".toList →
      ∀ content ∈ childrenNamed e.2 "serviceType".toList, wanType content = none := by
  rw [firstWanService, List.findSome?_eq_none_iff]
  constructor
  · intro h e he hname
    cases hwan : wanTypeOf e.2 with
    | none => exact wanType_of_none hwan
    | some type =>
        have hne : childrenNamed e.2 "serviceType".toList ≠ [] := by
          intro hnil
          rw [wanTypeOf, hnil] at hwan
          cases hwan
        obtain ⟨-, ⟨content, hcontent, data, -, rfl⟩, -⟩ := hdesc.service e he hne
        have hnone := h e he
        rw [wanService, if_pos hname, hwan, controlUrlOf, hcontent] at hnone
        cases hnone
  · intro h e he
    rw [wanService]
    split
    · next hname =>
        have hwan : wanTypeOf e.2 = none := List.findSome?_eq_none_iff.mpr (h e he hname)
        rw [hwan]
        rfl
    · rfl

/-- **The WAN service and its control URL.**  For every description in whose first WAN service no
other control URL precedes its own and no other WAN service its type:
`fetch_service_info` and `extract_wan_service` return the type and the control URL of the
first WAN service in document order, and nothing exactly when there is none. -/
theorem fetchServiceInfo_first {W : Type}
    {f : (o : RouterOp) → W → Option (Except RouterExn o.Res × W)} {w w' : W} {profileUrl : Text}
    {document : List XmlNode} (hget : f (.get profileUrl) w = some (.ok (some document), w'))
    (hdesc : DeviceDescription document)
    (hplain : FirstUnnested (elementsAmong document)) :
    (fetchServiceInfo profileUrl).eval f w = some (.ok (firstWanService document), w') ∧
      (ServiceDescriptionParser.extractWanService profileUrl).eval f w =
        some (.ok ((firstWanService document).map fun service =>
          (service.controlPath, service.serviceType)), w') ∧
      (firstWanService document = none ↔ ∀ e ∈ elementsAmong document, e.1 = "service".toList →
        ∀ content ∈ childrenNamed e.2 "serviceType".toList, wanType content = none) := by
  have hfetch : (fetchServiceInfo profileUrl).eval f w =
      some (.ok (firstWanService document), w') := by
    simp only [fetchServiceInfo, Prog.bind_eq, Prog.eval_bind, Prog.eval_tryExcept,
      Prog.eval_perform, hget, Prog.eval]
    rw [readProfile_first hdesc hplain]
    rfl
  refine ⟨hfetch, ?_, firstWanService_eq_none_iff hdesc⟩
  simp only [ServiceDescriptionParser.extractWanService, Prog.bind_eq, Prog.eval_bind, hfetch,
    Prog.pure_eq, Prog.eval]

/-! ## Services without nested elements -/

/-- The children of an element contain no further elements. -/
def Flat (childNodes : List XmlNode) : Prop :=
  ∀ tagName content, .element tagName content ∈ childNodes → elementsAmong content = []

theorem mem_elementsAmong {e : Text × List XmlNode} {nodes : List XmlNode}
    (h : e ∈ elementsAmong nodes) : ∃ node ∈ nodes, e ∈ node.elements := by
  induction nodes with
  | nil => exact absurd h List.not_mem_nil
  | cons first rest ih =>
      rw [elementsAmong] at h
      rcases List.mem_append.mp h with h | h
      · exact ⟨first, List.mem_cons_self, h⟩
      · obtain ⟨node, hnode, he⟩ := ih h
        exact ⟨node, List.mem_cons_of_mem _ hnode, he⟩

/-- The elements among flat children are the children. -/
theorem mem_of_flat {childNodes : List XmlNode} (hflat : Flat childNodes)
    {e : Text × List XmlNode} (h : e ∈ elementsAmong childNodes) :
    .element e.1 e.2 ∈ childNodes ∧ elementsAmong e.2 = [] := by
  obtain ⟨node, hnode, he⟩ := mem_elementsAmong h
  cases node with
  | characterData data => exact absurd he List.not_mem_nil
  | element tagName content =>
      have hnone := hflat tagName content hnode
      rw [XmlNode.elements, hnone, List.mem_singleton] at he
      rw [he]
      exact ⟨hnode, hnone⟩

theorem childrenNamed_nil_of_elements {childNodes : List XmlNode} {name : Text}
    (h : elementsAmong childNodes = []) : childrenNamed childNodes name = [] := by
  rw [childrenNamed, List.filterMap_eq_nil_iff]
  intro node hnode
  cases node with
  | characterData data => rfl
  | element tagName content =>
      have hmem := elements_subset hnode (List.mem_cons_self (a := (tagName, content)))
      rw [h] at hmem
      exact absurd hmem List.not_mem_nil

/-- **A service without nested elements**, as the schema of device descriptions has it, is one
in which nothing nested comes first. -/
theorem unnested_of_flat {childNodes content : List XmlNode} (hflat : Flat childNodes)
    (hurl : childrenNamed childNodes "controlURL".toList = [content]) : Unnested childNodes := by
  have hfront : ∀ {front back : List XmlNode}, childNodes = front ++ back → Flat front := by
    rintro front back hsplit tagName content hmem
    refine hflat tagName content ?_
    rw [hsplit]
    exact List.mem_append_left _ hmem
  refine ⟨fun front content' back hsplit e he hname => ?_, fun front content' back hsplit _ _ e he => ?_⟩
  · obtain ⟨hmem, -⟩ := mem_of_flat (hfront hsplit) he
    obtain ⟨before, after, rfl⟩ := List.append_of_mem hmem
    have htwo := congrArg List.length hurl
    rw [hname] at hsplit
    rw [hsplit, childrenNamed, List.filterMap_append, List.filterMap_append] at htwo
    rw [List.filterMap_cons_some XmlNode.contentIf_self,
      List.filterMap_cons_some XmlNode.contentIf_self] at htwo
    simp only [List.length_append, List.length_cons, List.length_nil] at htwo
    omega
  · obtain ⟨-, hnone⟩ := mem_of_flat (hfront hsplit) he
    have hwan : wanTypeOf e.2 = none := by
      rw [wanTypeOf, childrenNamed_nil_of_elements hnone]
      rfl
    rw [wanService, hwan]
    exact ite_self none

/-- A description whose services are without nested elements. -/
theorem unnested_of_schema {document : List XmlNode} (hdesc : DeviceDescription document)
    (hflat : ∀ e ∈ elementsAmong document, e.1 = "service".toList → Flat e.2) :
    FirstUnnested (elementsAmong document) := by
  intro e hfind
  have he : e ∈ elementsAmong document := List.mem_of_find?_eq_some hfind
  have hsome := List.find?_some hfind
  rw [wanService] at hsome
  split at hsome
  · next hname =>
      have hne : childrenNamed e.2 "serviceType".toList ≠ [] := by
        intro hnil
        rw [wanTypeOf, hnil] at hsome
        cases hsome
      obtain ⟨-, ⟨content, hcontent, -⟩, -⟩ := hdesc.service e he hne
      exact unnested_of_flat (hflat e he hname) hcontent
  · cases hsome

/-! ## A device inside a service -/

/-- An element that contains a text. -/
def leaf (name data : String) : XmlNode := .element name.toList [.characterData data.toList]

def branch (name : String) (childNodes : List XmlNode) : XmlNode := .element name.toList childNodes

/-- A network on which one description is served. -/
def serving (document : List XmlNode) :
    (o : RouterOp) → Unit → Option (Except RouterExn o.Res × Unit)
  | .get _, () => some (.ok (some document), ())
  | _, () => none

/-- A service of a device. -/
def layerService : XmlNode :=
  branch "service" [leaf "serviceType" "Layer3Forwarding:1", leaf "controlURL" "/l3f"]

/-- A WAN service in whose element a device comes first. -/
def nestedDocument : List XmlNode :=
  [branch "root" [branch "service" [branch "device" [layerService],
    leaf "serviceType" "WANIPConnection:1", leaf "controlURL" "/wanip"]]]

/-- A WAN service of a device that is nested in another device. -/
def routerDocument : List XmlNode :=
  [branch "root" [branch "device" [layerService, branch "device" [branch "service"
    [leaf "serviceType" "WANIPConnection:1", leaf "controlURL" "/wanip"]]]]]

/-- `IsText`, evaluated. -/
def isTextTest : List XmlNode → Bool
  | [.characterData (_ :: _)] => true
  | _ => false

theorem isText_of_test {content : List XmlNode} (h : isTextTest content = true) :
    IsText content := by
  unfold isTextTest at h
  split at h
  · next c data => exact ⟨c :: data, List.cons_ne_nil _ _, rfl⟩
  · cases h

/-- `DeviceDescription`, evaluated. -/
def descriptionTest (document : List XmlNode) : Bool :=
  (childrenNamed document "serviceType".toList).isEmpty &&
    (elementsAmong document).all fun e =>
      (childrenNamed e.2 "serviceType".toList).isEmpty ||
        (decide (e.1 = "service".toList) &&
          decide ((childrenNamed e.2 "controlURL".toList).length = 1) &&
          (childrenNamed e.2 "controlURL".toList).all isTextTest &&
          (childrenNamed e.2 "serviceType".toList).all isTextTest)

theorem description_of_test {document : List XmlNode} (h : descriptionTest document = true) :
    DeviceDescription document := by
  simp only [descriptionTest, Bool.and_eq_true, Bool.or_eq_true, List.isEmpty_iff,
    List.all_eq_true, decide_eq_true_eq] at h
  refine ⟨h.1, fun e he hne => ?_⟩
  obtain ⟨⟨⟨hname, hone⟩, hurl⟩, htype⟩ := (h.2 e he).resolve_left hne
  obtain ⟨content, hcontent⟩ := List.length_eq_one_iff.mp hone
  refine ⟨hname, ⟨content, hcontent, ?_⟩, fun c hc => isText_of_test (htype c hc)⟩
  exact isText_of_test (hurl content (by rw [hcontent]; exact List.mem_singleton_self _))

/-- `Flat`, evaluated. -/
def flatTest (childNodes : List XmlNode) : Bool :=
  childNodes.all fun node =>
    match node with
    | .element _ content => (elementsAmong content).isEmpty
    | .characterData _ => true

theorem flat_of_test {childNodes : List XmlNode} (h : flatTest childNodes = true) :
    Flat childNodes := by
  intro tagName content hmem
  exact List.isEmpty_iff.mp (List.all_eq_true.mp h _ hmem)

/-- **Another service's control URL.**  The device nested in the WAN service comes before its
control URL, so the WAN type is returned with the control URL of the other service. -/
theorem foreign_control_url :
    ¬ ∀ document, DeviceDescription document →
      (fetchServiceInfo []).eval (serving document) () =
        some (.ok (firstWanService document), ()) := by
  intro h
  have hdesc : DeviceDescription nestedDocument := description_of_test (by decide +kernel)
  have hcode : (fetchServiceInfo []).eval (serving nestedDocument) () =
      some (.ok (some ⟨"/l3f".toList, "WANIPConnection:1".toList⟩), ()) := by
    rfl
  have hspec : firstWanService nestedDocument =
      some ⟨"/wanip".toList, "WANIPConnection:1".toList⟩ := by
    decide +kernel
  have hboth := hcode.symm.trans (h nestedDocument hdesc)
  rw [hspec] at hboth
  exact absurd hboth (by decide)

/-- The theorem at a description with nested devices. -/
theorem fetchServiceInfo_router :
    (fetchServiceInfo []).eval (serving routerDocument) () =
      some (.ok (some ⟨"/wanip".toList, "WANIPConnection:1".toList⟩), ()) := by
  have hdesc : DeviceDescription routerDocument := description_of_test (by decide +kernel)
  have hplain : FirstUnnested (elementsAmong routerDocument) := by
    refine unnested_of_schema hdesc fun e he hname => ?_
    have htest : ((elementsAmong routerDocument).all fun e =>
        decide (e.1 ≠ "service".toList) || flatTest e.2) = true := by decide +kernel
    have hflat := List.all_eq_true.mp htest e he
    rw [Bool.or_eq_true, decide_eq_true_eq] at hflat
    exact flat_of_test (hflat.resolve_left fun h => h hname)
  have hspec : firstWanService routerDocument =
      some ⟨"/wanip".toList, "WANIPConnection:1".toList⟩ := by
    decide +kernel
  rw [(fetchServiceInfo_first rfl hdesc hplain).1, hspec]
