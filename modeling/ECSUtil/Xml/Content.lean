/-
# The content of a document

What an element of a well-formed document holds (`Content`): the nodes that the reader makes of it, and
the events that a callback is told of.  A scan of the nodes tells the callback these events, one after
the other (`Content.reads`).

What is told from the inside of an element has more slashes in its path than the element
(`Content.slashes_inside`), so a path of as many slashes is not met there.
-/

import ECSUtil.Xml.Document

namespace ECSUtil
namespace Xml

/-- What an element holds, from its front: no more, a text, a comment, an empty element, an element. -/
inductive Content
  | nil
  | text (value : CString) (rest : Content)
  | other (rest : Content)
  | empty (name : CString) (attributes : List (CString × CString × CString)) (rest : Content)
  | element (name : CString) (attributes : List (CString × CString × CString))
      (inside rest : Content)

/-- An event, with the open elements. -/
abbrev Told := List CString × Event

/-- The start of an element. -/
def start (attributes : List (CString × CString × CString)) : Event :=
  .element (attributes.map fun a => (qualified a.1 a.2.1, a.2.2))

namespace Content

/-- The nodes. -/
def nodes : Content → List Node
  | nil => []
  | text value rest => .text { value := value } :: rest.nodes
  | other rest => .other :: rest.nodes
  | empty name attributes rest =>
      .element true { value := [] } { value := name } { value := attributes.map attr } S_OK ::
        rest.nodes
  | element name attributes inside rest => treeWith name attributes inside.nodes ++ rest.nodes

/-- The events. -/
def told (stack : List CString) : Content → List Told
  | nil => []
  | text value rest => (stack, .text value) :: rest.told stack
  | other rest => rest.told stack
  | empty name attributes rest =>
      (stack ++ [name], start attributes) :: (stack ++ [name], .endElement) :: rest.told stack
  | element name attributes inside rest =>
      (stack ++ [name], start attributes) :: (inside.told (stack ++ [name]) ++
        (stack ++ [name], .endElement) :: rest.told stack)

/-- An element alone. -/
def single (name : CString) (attributes : List (CString × CString × CString)) (inside : Content) :
    Content :=
  element name attributes inside nil

end Content

/-- The events of an element, but for its end. -/
def inner (stack : List CString) (attributes : List (CString × CString × CString))
    (inside : Content) : List Told :=
  (stack, start attributes) :: inside.told stack

/-- The callback is told some events. -/
def Callback.tell {σ : Type} (cb : Callback σ) (es : List Told) (c : σ) : σ :=
  es.foldl (fun c e => cb.next e.1 e.2 c) c

section

variable {σ : Type} {cb : Callback σ} {stack : List CString} {nodes : List Node} {f : σ → σ}

/-- Nothing told changes nothing. -/
@[simp] theorem Callback.tell_nil (c : σ) : cb.tell [] c = c := rfl

/-- An event is told before those behind it. -/
@[simp] theorem Callback.tell_cons (e : Told) (es : List Told) (c : σ) :
    cb.tell (e :: es) c = cb.tell es (cb.next e.1 e.2 c) := rfl

/-- Lists of events are told one after the other. -/
@[simp] theorem Callback.tell_append (es es' : List Told) (c : σ) :
    cb.tell (es ++ es') c = cb.tell es' (cb.tell es c) := List.foldl_append

/-- An element without content tells nothing. -/
@[simp] theorem Content.tell_nil (c : σ) : cb.tell ((nil : Content).told stack) c = c := rfl

/-- A text is told before what is behind it. -/
theorem Content.tell_text (value : CString) (rest : Content) (c : σ) :
    cb.tell ((text value rest).told stack) c =
      cb.tell (rest.told stack) (cb.next stack (.text value) c) := rfl

/-- An element tells its start, what it holds, and its end. -/
theorem Content.tell_element (name : CString) (attributes : List (CString × CString × CString))
    (inside rest : Content) (c : σ) :
    cb.tell ((element name attributes inside rest).told stack) c =
      cb.tell (rest.told stack) (cb.next (stack ++ [name]) .endElement
        (cb.tell (inside.told (stack ++ [name]))
          (cb.next (stack ++ [name]) (start attributes) c))) := by
  rw [told, Callback.tell_cons, Callback.tell_append, Callback.tell_cons]

/-- A single element tells its inside and its end. -/
theorem told_single {name : CString} {attributes : List (CString × CString × CString)}
    {inside : Content} :
    (Content.single name attributes inside).told stack =
      inner (stack ++ [name]) attributes inside ++ [(stack ++ [name], .endElement)] := rfl

/-- An empty element: its start, and an end that the scan makes up. -/
theorem Reads.emptyElement (hcb : cb.Harmless) (name : CString)
    (attributes : List (CString × CString × CString)) :
    Reads cb stack [.element true { value := [] } { value := name }
        { value := attributes.map attr } S_OK]
      (cb.next (stack ++ [name]) .endElement ∘ cb.next (stack ++ [name]) (start attributes)) := by
  intro c
  unfold start
  set attrList := attributes.map fun a => (qualified a.1 a.2.1, a.2.2) with hattr
  have hnode : scanNode cb (stack, c) (.element true { value := [] } { value := name }
      { value := attributes.map attr } S_OK) =
      .ok (stack, cb.next (stack ++ [name]) .endElement
        (cb.next (stack ++ [name]) (.element attrList) c)) := by
    simp only [scanNode, check]
    simp only [show FAILED S_OK = false from rfl, Bool.false_eq_true, if_false, if_true]
    change (collectAttributes c (attributes.map attr) >>= _) = _
    rw [collectAttributes_map, ← hattr]
    change (Xml.checkIfInterested cb (stack ++ [qualified [] name]) (.element attrList) c >>= _) = _
    rw [hcb.checkIfInterested]
    change (Xml.checkIfInterested cb (stack ++ [qualified [] name]) .endElement _ >>= _) = _
    rw [hcb.checkIfInterested]
    rfl
  unfold scanNodes
  rw [List.foldlM_cons, hnode]
  rfl

/-- **A scan tells the callback the events of the content.** The induction is on the content: a
text, an element, or what stands behind it; an event has the path that the stack of open elements
makes. -/
theorem Content.reads (hcb : cb.Harmless) (d : Content) (stack : List CString) :
    Reads cb stack d.nodes (cb.tell (d.told stack)) := by
  induction d generalizing stack with
  | nil => exact Reads.nil
  | text value rest ih => exact (Reads.text hcb value).append (ih stack)
  | other rest ih => exact Reads.other.append (ih stack)
  | empty name attributes rest ih => exact (Reads.emptyElement hcb name attributes).append (ih stack)
  | element name attributes inside rest ihInside ih =>
      refine ((Reads.treeWith hcb attributes (ihInside _)).append (ih stack)).congr fun c => ?_
      simp only [told, Callback.tell_cons, Callback.tell_append, Function.comp_apply]
      rfl

/-- **The scan of a well-formed document.** It ends with `S_OK`, as the reader has come to the end
of the document and the callback fails nowhere. -/
theorem Content.scanXmlStream (hcb : cb.Harmless) (d : Content) (c : σ) :
    Xml.scanXmlStream cb { nodes := d.nodes, last := S_FALSE, last_ne := S_FALSE_ne_S_OK } c =
      (0, cb.tell (d.told []) c) :=
  (d.reads hcb []).scanXmlStream _ _ c

/-- An event is told of an element that is open, or of one in it. -/
theorem Content.told_inside {d : Content} {e : Told} (he : e ∈ d.told stack) :
    ∃ more, e.1 = stack ++ more ∧ (more = [] → ∃ value, e.2 = .text value) := by
  induction d generalizing stack with
  | nil => exact absurd he List.not_mem_nil
  | text value rest ih =>
      rcases List.mem_cons.1 he with rfl | he
      · exact ⟨[], (List.append_nil _).symm, fun _ => ⟨value, rfl⟩⟩
      · exact ih he
  | other rest ih => exact ih he
  | empty name attributes rest ih =>
      rcases List.mem_cons.1 he with rfl | he
      · exact ⟨[name], rfl, fun h => absurd h (List.cons_ne_nil _ _)⟩
      · rcases List.mem_cons.1 he with rfl | he
        · exact ⟨[name], rfl, fun h => absurd h (List.cons_ne_nil _ _)⟩
        · exact ih he
  | element name attributes inside rest ihInside ih =>
      rcases List.mem_cons.1 he with rfl | he
      · exact ⟨[name], rfl, fun h => absurd h (List.cons_ne_nil _ _)⟩
      · rcases List.mem_append.1 he with he | he
        · obtain ⟨more, hmore, -⟩ := ihInside he
          exact ⟨name :: more, by rw [hmore, List.append_assoc]; rfl,
            fun h => absurd h (List.cons_ne_nil _ _)⟩
        · rcases List.mem_cons.1 he with rfl | he
          · exact ⟨[name], rfl, fun h => absurd h (List.cons_ne_nil _ _)⟩
          · exact ih he

/-- The slashes of a path, or of a text that is the same but for its letter case. -/
def slashes (p : CString) : ℕ := p.count '/'

/-- Paths that are compared as the same have the same slashes. -/
theorem slashes_eq {p q : CString} (h : compareNoCase p q = true) : slashes p = slashes q := by
  have hlower : ∀ c : Char, c.toLower = '/' ↔ c = '/' := by
    intro c
    unfold Char.toLower
    split_ifs with hc
    · refine ⟨fun h => ?_, ?_⟩
      · have hval : c.val + 32 = 47 := congrArg Char.val h
        obtain ⟨h₁, h₂⟩ := hc
        have h₁ := UInt32.le_iff_toNat_le.1 h₁
        have h₂ := UInt32.le_iff_toNat_le.1 h₂
        have hnat := congrArg UInt32.toNat hval
        rw [UInt32.toNat_add] at hnat
        simp at h₁ h₂ hnat
        omega
      · rintro rfl
        exact absurd hc (by decide)
    · rfl
  have hcount : ∀ s : CString, slashes s = (s.map Char.toLower).count '/' := by
    intro s
    unfold slashes List.count
    rw [List.countP_map]
    exact List.countP_congr fun c _ => by simp [hlower]
  rw [hcount, hcount, eq_of_beq h]

/-- A path has a slash more for each element that is deeper. -/
theorem slashes_path (stack more : List CString) :
    slashes (path stack) + more.length ≤ slashes (path (stack ++ more)) := by
  have hmore : more.length ≤ slashes (more.flatMap fun name => '/' :: name) := by
    induction more with
    | nil => exact Nat.zero_le _
    | cons name more ih =>
        unfold slashes at ih ⊢
        rw [List.flatMap_cons, List.count_append, List.count_cons_self, List.length_cons]
        omega
  unfold slashes path at *
  rw [List.flatMap_append, List.count_cons_self, List.count_cons_self, List.count_append]
  omega

/-- **What is told from the inside of an element** has more slashes in its path, unless it is a
text. A path has a slash more for each element that is open, so events of an element are told apart
from those inside it by their paths. -/
theorem Content.slashes_inside {d : Content} {e : Told} (he : e ∈ d.told stack)
    (htext : ∀ value, e.2 ≠ .text value) : slashes (path stack) < slashes (path e.1) := by
  obtain ⟨more, hmore, hnil⟩ := told_inside he
  have hpos : 0 < more.length := by
    refine List.length_pos_iff.2 fun h => ?_
    obtain ⟨value, hvalue⟩ := hnil h
    exact htext value hvalue
  have hpath := slashes_path stack more
  rw [hmore]
  omega

end

end Xml
end ECSUtil
