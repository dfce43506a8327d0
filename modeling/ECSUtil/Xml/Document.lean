/-
# What a scan makes of a document

A document that is put together of elements, for a callback that never fails: what the scan does to
the context is put together in the same way (`Reads`).

The scan keeps a stack of the names it is in, and the path of an event is that stack.  So what an
element does is what its nodes do under the stack with its name (`Reads.treeWith`), and nodes one
after the other do one after the other (`Reads.append`).
-/

import ECSUtil.Xml.Scan

namespace ECSUtil
namespace Xml

/-- An element with what it holds. -/
def tree (name : CString) (nodes : List Node) : List Node := element name :: nodes ++ [.endElement]

/-- An attribute that the reader reads: its prefix, its name and its value. -/
def attr (a : CString × CString × CString) : Attribute where
  prefixName := { value := a.1 }
  localName := { value := a.2.1 }
  value := { value := a.2.2 }

/-- An element with attributes, and what it holds. -/
def treeWith (name : CString) (attributes : List (CString × CString × CString))
    (nodes : List Node) : List Node :=
  .element false { value := [] } { value := name } { value := attributes.map attr } S_OK ::
    nodes ++ [.endElement]

variable {σ : Type} {cb : Callback σ}

/-- The attributes are collected with their qualified names. -/
theorem collectAttributes_map (c : σ) (attributes : List (CString × CString × CString)) :
    collectAttributes c (attributes.map attr) =
      .ok (attributes.map fun a => (qualified a.1 a.2.1, a.2.2)) := by
  induction attributes with
  | nil => rfl
  | cons a l ih =>
      simp only [List.map_cons, collectAttributes]
      rw [ih]
      rfl

/-- What the callback does to the context. -/
def Callback.next (cb : Callback σ) (stack : List CString) (e : Event) (c : σ) : σ :=
  (cb (path stack) e c).2

/-- A callback that never fails is told of an event and goes on. -/
theorem Callback.Harmless.checkIfInterested (hcb : cb.Harmless) (stack : List CString) (e : Event)
    (c : σ) : Xml.checkIfInterested cb stack e c = .ok (cb.next stack e c) := by
  have hhr := hcb (path stack) e c
  simp [Xml.checkIfInterested, check, hhr, Callback.next]

/-- The scan of some nodes in an element leaves the element open, and changes the context by
`f`. -/
def Reads (cb : Callback σ) (stack : List CString) (nodes : List Node) (f : σ → σ) : Prop :=
  ∀ c, scanNodes cb nodes (stack, c) = .ok (stack, f c)

variable {stack : List CString} {nodes nodes' : List Node} {f g : σ → σ}

/-- No nodes do nothing. -/
theorem Reads.nil : Reads cb stack [] id := fun _ => rfl

/-- What nodes do may be said in another way. -/
theorem Reads.congr (h : Reads cb stack nodes f) (hg : ∀ c, f c = g c) : Reads cb stack nodes g :=
  fun c => hg c ▸ h c

/-- **One after the other.** Both leave the stack of open elements as they found it, so the second
begins where the first began. -/
theorem Reads.append (h : Reads cb stack nodes f) (h' : Reads cb stack nodes' g) :
    Reads cb stack (nodes ++ nodes') (g ∘ f) := by
  intro c
  have hf := h c
  have hg := h' (f c)
  unfold scanNodes at hf hg ⊢
  rw [List.foldlM_append, hf]
  exact hg

/-- A node that the scan passes over does nothing. -/
theorem Reads.other : Reads cb stack [.other] id := fun _ => rfl

/-- A text of a document is told to the callback. -/
theorem Reads.text (hcb : cb.Harmless) (value : CString) :
    Reads cb stack [.text { value := value }] (cb.next stack (.text value)) := by
  intro c
  simp only [scanNodes, List.foldlM_cons, List.foldlM_nil, scanNode, check]
  rw [if_neg (by decide)]
  simp only [hcb.checkIfInterested]
  rfl

/-- **An element**: its start with the attributes, what it holds, and its end. What it holds is read
with the name on the stack, and the name is off again at the end; a callback that never fails goes
on with all of it. -/
theorem Reads.treeWith (hcb : cb.Harmless) {name : CString}
    (attributes : List (CString × CString × CString)) (h : Reads cb (stack ++ [name]) nodes f) :
    Reads cb stack (Xml.treeWith name attributes nodes)
      (cb.next (stack ++ [name]) .endElement ∘ f ∘ cb.next (stack ++ [name])
        (.element (attributes.map fun a => (qualified a.1 a.2.1, a.2.2)))) := by
  intro c
  set attrList := attributes.map fun a => (qualified a.1 a.2.1, a.2.2) with hattr
  have hopen : scanNode cb (stack, c) (.element false { value := [] } { value := name }
      { value := attributes.map attr } S_OK) =
      .ok (stack ++ [name], cb.next (stack ++ [name]) (.element attrList) c) := by
    simp only [scanNode, check]
    simp only [show FAILED S_OK = false from rfl, Bool.false_eq_true, if_false]
    change (collectAttributes c (attributes.map attr) >>= _) = _
    rw [collectAttributes_map, ← hattr]
    change (Xml.checkIfInterested cb (stack ++ [qualified [] name]) (.element attrList) c >>= _) = _
    rw [hcb.checkIfInterested]
    rfl
  have hclose : ∀ c, scanNode cb (stack ++ [name], c) .endElement =
      .ok (stack, cb.next (stack ++ [name]) .endElement c) := fun c => by
    simp only [scanNode, hcb.checkIfInterested]
    change Except.ok ((stack ++ [name]).dropLast, _) = _
    rw [List.dropLast_concat]
  have hf := h (cb.next (stack ++ [name]) (.element attrList) c)
  unfold scanNodes at hf ⊢
  rw [Xml.treeWith, List.cons_append, List.foldlM_cons, hopen]
  change (nodes ++ [Node.endElement]).foldlM (scanNode cb) _ = _
  rw [List.foldlM_append, hf]
  change [Node.endElement].foldlM (scanNode cb) _ = _
  rw [List.foldlM_cons, hclose]
  rfl

/-- An element without attributes. -/
theorem Reads.tree (hcb : cb.Harmless) {name : CString} (h : Reads cb (stack ++ [name]) nodes f) :
    Reads cb stack (Xml.tree name nodes)
      (cb.next (stack ++ [name]) .endElement ∘ f ∘ cb.next (stack ++ [name]) (.element [])) :=
  Reads.treeWith hcb [] h

/-- **A list of parts.** Each of them does to the context what it does, in the order of the list, as
the stack is the same in front of each. -/
theorem Reads.flatMap {α : Type} {part : α → List Node} {F : α → σ → σ}
    (h : ∀ a, Reads cb stack (part a) (F a)) (l : List α) :
    Reads cb stack (l.flatMap part) fun c => l.foldl (fun c a => F a c) c := by
  induction l with
  | nil => exact Reads.nil
  | cons a l ih =>
      rw [List.flatMap_cons]
      exact (h a).append ih

/-- **A document** that the reader reads without a failure. The scan has come to its end when the
reader has no further node, so what is left is the context that the nodes have made. -/
theorem Reads.scanXmlStream (h : Reads cb [] nodes f) (last : DWORD) (hlast : last ≠ S_OK) (c : σ) :
    Xml.scanXmlStream cb { nodes := nodes, last := last, last_ne := hlast } c = (0, f c) := by
  have hc := h c
  simp only [Xml.scanXmlStream, show FAILED S_OK = false from rfl, Bool.false_eq_true, if_false]
  rw [hc]

end Xml
end ECSUtil
