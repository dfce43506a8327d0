/-
# Scanning an XML document

`ScanXmlStream` and `CheckIfInterested` (`ECSUtil/XmlLiteUtil.cpp`) over a reader that
is a parameter: what the calls to it return for one document (`Reading`).  The callback is told
of each element, its end and its text, with the path of the element.

A callback stops the scan with a failing `HRESULT` only, and the result of the last `Read`, which
tells the end of a well-formed document from an error, is dropped
(`scanXmlStream_reaches_end`).
-/

import ECSUtil.Conn.Error
import ECSUtil.Conn.Text
import ECSUtil.Lib.Outcome

namespace ECSUtil
namespace Xml

/-- What a call to the reader returns. -/
structure Call (α : Type) where
  hr : DWORD := S_OK
  value : α
  deriving DecidableEq, Repr

/-- An attribute that the moves from one to the next reach. -/
structure Attribute where
  isDefault : Bool := false
  prefixName : Call CString := { value := [] }
  localName : Call CString
  value : Call CString
  deriving DecidableEq, Repr

/-- A node, as `Read` gives it, with what the calls on it return. -/
inductive Node
  | element (isEmpty : Bool) (prefixName localName : Call CString)
      (attributes : Call (List Attribute)) (moveToElement : DWORD)
  | endElement
  | text (value : Call CString)
  /-- The declaration, a comment, white space. -/
  | other
  deriving DecidableEq, Repr

/-- What the reader makes of a document: the calls that set it up, the nodes, and what `Read` returns
after the last of them, which is `S_FALSE` at the end of a well-formed document and a
failure else. -/
structure Reading where
  createXmlReader : DWORD := S_OK
  setProperty : DWORD := S_OK
  setInput : DWORD := S_OK
  nodes : List Node
  last : DWORD
  last_ne : last ≠ S_OK

/-- The end of a well-formed document is no node. -/
theorem S_FALSE_ne_S_OK : S_FALSE ≠ S_OK := by decide

/-- What the callback is told of: the type of the node, with the attributes or the text. -/
inductive Event
  | element (attrList : List (CString × CString))
  | endElement
  | text (value : CString)
  deriving DecidableEq, Repr

/-- `XMLLITE_READER_CB`: the path, the node and the context. -/
abbrev Callback (σ : Type) := CString → Event → σ → DWORD × σ

/-- The path of an element. -/
def path (stack : List CString) : CString := '/' :: stack.flatMap fun name => '/' :: name

/-- A name with its prefix. -/
def qualified (prefixName localName : CString) : CString :=
  if prefixName = [] then localName else prefixName ++ ':' :: localName

/-- A call that must not fail. -/
def check {σ α : Type} (c : σ) (hr : DWORD) (a : α) : Except (DWORD × σ) α :=
  if FAILED hr then .error (hr, c) else .ok a

section

variable {σ : Type} (cb : Callback σ)

/-- `CheckIfInterested`, and the test of its result. -/
def checkIfInterested (stack : List CString) (e : Event) (c : σ) : Except (DWORD × σ) σ :=
  let (hr, c') := cb (path stack) e c
  check c' hr c'

/-- The attributes of an element. -/
def collectAttributes (c : σ) : List Attribute → Except (DWORD × σ) (List (CString × CString))
  | [] => .ok []
  | a :: rest =>
      if a.isDefault then collectAttributes c rest
      else do
        let prefixName ← check c a.prefixName.hr a.prefixName.value
        let localName ← check c a.localName.hr a.localName.value
        let value ← check c a.value.hr a.value.value
        let attrList ← collectAttributes c rest
        return (qualified prefixName localName, value) :: attrList

/-- One turn of the loop: the stack of the open elements, and the context. -/
def scanNode (s : List CString × σ) : Node → Except (DWORD × σ) (List CString × σ)
  | .element isEmpty prefixName localName attributes moveToElement => do
      let prefixName ← check s.2 prefixName.hr prefixName.value
      let localName ← check s.2 localName.hr localName.value
      let stack := s.1 ++ [qualified prefixName localName]
      let attributes ← check s.2 attributes.hr attributes.value
      let attrList ← collectAttributes s.2 attributes
      let c ← checkIfInterested cb stack (.element attrList) s.2
      let c ← check c moveToElement c
      -- An empty element has no end of its own.
      if isEmpty then
        let c ← checkIfInterested cb stack .endElement c
        return (s.1, c)
      else return (stack, c)
  | .endElement => do
      let c ← checkIfInterested cb s.1 .endElement s.2
      return (s.1.dropLast, c)
  | .text value => do
      let value ← check s.2 value.hr value.value
      let c ← checkIfInterested cb s.1 (.text value) s.2
      return (s.1, c)
  | .other => .ok s

/-- The nodes of a document. -/
def scanNodes (nodes : List Node) (s : List CString × σ) :
    Except (DWORD × σ) (List CString × σ) :=
  nodes.foldlM (scanNode cb) s

/-- `ScanXmlStream`: its result, and the context after it. -/
def scanXmlStream (rd : Reading) (c : σ) : DWORD × σ :=
  if FAILED rd.createXmlReader then (rd.createXmlReader, c)
  else if FAILED rd.setProperty then (rd.setProperty, c)
  else if FAILED rd.setInput then (rd.setInput, c)
  else
    match scanNodes cb rd.nodes ([], c) with
    | .ok s => (0, s.2)
    | .error e => e

end

/-- An element, and one that holds a text and nothing else. -/
def element (name : CString) : Node :=
  .element false { value := [] } { value := name } { value := [] } S_OK

@[inherit_doc element]
def leaf (name value : CString) : List Node :=
  [element name, .text { value := value }, .endElement]

/-- An attribute whose calls do not all succeed. -/
def Attribute.fails (a : Attribute) : Bool :=
  !a.isDefault && (FAILED a.prefixName.hr || FAILED a.localName.hr || FAILED a.value.hr)

/-- A node whose calls do not all succeed. -/
def Node.fails : Node → Bool
  | .element _ prefixName localName attributes moveToElement =>
      FAILED prefixName.hr || FAILED localName.hr || FAILED attributes.hr ||
        attributes.value.any Attribute.fails || FAILED moveToElement
  | .text value => FAILED value.hr
  | _ => false

/-- A call to the reader other than `Read` fails. -/
def Reading.fails (rd : Reading) : Bool :=
  FAILED rd.createXmlReader || FAILED rd.setProperty || FAILED rd.setInput ||
    rd.nodes.any Node.fails

section

variable {σ : Type} {cb : Callback σ} {c : σ}

/-- A call that succeeds. -/
theorem meets_check {α : Type} {hr : DWORD} {a : α} {E : DWORD × σ → Prop}
    (hE : FAILED hr = true → E (hr, c)) :
    (check c hr a).Meets (fun x => x = a ∧ FAILED hr = false) E := by
  unfold check
  split_ifs with h
  · exact hE h
  · exact ⟨rfl, Bool.eq_false_iff.2 h⟩

/-- The attributes are collected if all of the calls succeed. -/
theorem meets_collectAttributes (l : List Attribute) :
    (collectAttributes c l).Meets (fun _ => l.any Attribute.fails = false)
      fun e => l.any Attribute.fails = true ∧ FAILED e.1 = true ∧ e.2 = c := by
  induction l with
  | nil => exact rfl
  | cons a l ih =>
      unfold collectAttributes
      split_ifs with hd
      · simpa [Attribute.fails, hd] using ih
      · have hf : ∀ hr : DWORD, hr ∈ [a.prefixName.hr, a.localName.hr, a.value.hr] →
            FAILED hr = true → (a :: l).any Attribute.fails = true := by
          intro hr hm hfail
          simp only [List.mem_cons, List.not_mem_nil, or_false] at hm
          rcases hm with rfl | rfl | rfl <;> simp [Attribute.fails, hd, hfail]
        refine (meets_check fun h => ⟨hf _ (by simp) h, h, rfl⟩).bind fun _ ⟨_, h₁⟩ => ?_
        refine (meets_check fun h => ⟨hf _ (by simp) h, h, rfl⟩).bind fun _ ⟨_, h₂⟩ => ?_
        refine (meets_check fun h => ⟨hf _ (by simp) h, h, rfl⟩).bind fun _ ⟨_, h₃⟩ => ?_
        refine (ih.imp (fun _ h => h) fun e he => ⟨by simp [he.1], he.2⟩).bind fun _ h₄ => ?_
        exact Except.meets_pure (by simp [Attribute.fails, hd, h₁, h₂, h₃, h₄])

/-- The callback keeps `Q` of its context, and where it fails `E` holds. -/
structure Callback.Keeps (cb : Callback σ) (Q : σ → Prop) (E : DWORD × σ → Prop) : Prop where
  fails : ∀ p e c, Q c → FAILED (cb p e c).1 = true → E (cb p e c)
  keeps : ∀ p e c, Q c → FAILED (cb p e c).1 = false → Q (cb p e c).2

variable {Q : σ → Prop} {E : DWORD × σ → Prop}

/-- A callback that keeps a property is told of an event, and goes on or stops with it kept. -/
theorem Callback.Keeps.meets (hcb : cb.Keeps Q E) (stack : List CString) (e : Event) (hc : Q c) :
    (checkIfInterested cb stack e c).Meets Q E :=
  (meets_check (hcb.fails _ e c hc)).imp (fun _ h => h.1 ▸ hcb.keeps _ e c hc h.2) fun _ h => h

/-- **A turn of the scan** keeps what the callback keeps, and ends it where a call on the node
fails. -/
theorem Callback.Keeps.scanNode (hcb : cb.Keeps Q E) (s : List CString × σ) (n : Node)
    (hn : ∀ hr c, FAILED hr = true → n.fails = true → Q c → E (hr, c)) (hs : Q s.2) :
    (Xml.scanNode cb s n).Meets (fun s' => Q s'.2 ∧ n.fails = false) E := by
  cases n with
  | element isEmpty prefixName localName attributes moveToElement =>
      refine (meets_check fun h => hn _ _ h (by simp [Node.fails, h]) hs).bind fun _ ⟨_, h₁⟩ => ?_
      refine (meets_check fun h => hn _ _ h (by simp [Node.fails, h]) hs).bind fun _ ⟨_, h₂⟩ => ?_
      refine (meets_check fun h => hn _ _ h (by simp [Node.fails, h]) hs).bind fun _ ⟨hl, h₃⟩ => ?_
      subst hl
      refine ((meets_collectAttributes _).imp (fun _ h => h) fun e ⟨ha, hf, he⟩ =>
        hn e.1 e.2 hf (by simp [Node.fails, ha]) (he.symm ▸ hs)).bind fun _ h₄ => ?_
      refine (hcb.meets _ _ hs).bind fun c' hc' => ?_
      refine (meets_check fun h => hn _ _ h (by simp [Node.fails, h]) hc').bind fun c'' h₅ => ?_
      obtain ⟨rfl, h₅⟩ := h₅
      have hall : Node.fails (.element isEmpty prefixName localName attributes moveToElement) =
          false := by simp [Node.fails, h₁, h₂, h₃, h₄, h₅]
      split_ifs
      · exact (hcb.meets _ _ hc').bind fun _ hc => Except.meets_pure ⟨hc, hall⟩
      · exact Except.meets_pure ⟨hc', hall⟩
  | endElement => exact (hcb.meets _ _ hs).bind fun _ hc => Except.meets_pure ⟨hc, rfl⟩
  | text value =>
      refine (meets_check fun h => hn _ _ h h hs).bind fun _ ⟨_, h₁⟩ => ?_
      exact (hcb.meets _ _ hs).bind fun _ hc => Except.meets_pure ⟨hc, h₁⟩
  | other => exact ⟨hs, rfl⟩

/-- **The nodes**, one after the other. The induction is on the nodes; `Q` is what holds of the
context between two of them, and `E` of what a scan that is stopped returns. -/
theorem Callback.Keeps.scanNodes (hcb : cb.Keeps Q E) (nodes : List Node) (s : List CString × σ)
    (hn : ∀ hr c, FAILED hr = true → nodes.any Node.fails = true → Q c → E (hr, c))
    (hs : Q s.2) :
    (Xml.scanNodes cb nodes s).Meets (fun s' => Q s'.2 ∧ nodes.any Node.fails = false) E := by
  induction nodes generalizing s with
  | nil => exact ⟨hs, rfl⟩
  | cons n nodes ih =>
      rw [Xml.scanNodes, List.foldlM_cons]
      refine (hcb.scanNode s n (fun hr c h hf => hn hr c h (by simp [hf])) hs).bind
        fun s' ⟨hs', h₁⟩ => ?_
      refine (ih s' (fun hr c h hf => hn hr c h (by simp [hf])) hs').imp (fun _ h => ?_) fun _ h => h
      exact ⟨h.1, by simp [h₁, h.2]⟩

/-- **How a scan ends**: with `0`, where no call to the reader other than `Read` fails, or with an
error. -/
theorem Callback.Keeps.scanXmlStream (hcb : cb.Keeps Q E) (rd : Reading)
    (hrd : ∀ hr c, FAILED hr = true → rd.fails = true → Q c → E (hr, c)) (hc : Q c) :
    ((Xml.scanXmlStream cb rd c).1 = 0 ∧ Q (Xml.scanXmlStream cb rd c).2 ∧ rd.fails = false) ∨
      E (Xml.scanXmlStream cb rd c) := by
  have hnodes := hcb.scanNodes rd.nodes ([], c)
    (fun hr c h hf => hrd hr c h (by simp [Reading.fails, hf])) hc
  unfold Xml.scanXmlStream
  split_ifs with h₁ h₂ h₃
  · exact .inr (hrd _ _ h₁ (by simp [Reading.fails, h₁]) hc)
  · exact .inr (hrd _ _ h₂ (by simp [Reading.fails, h₂]) hc)
  · exact .inr (hrd _ _ h₃ (by simp [Reading.fails, h₃]) hc)
  · cases hr : Xml.scanNodes cb rd.nodes ([], c) with
    | ok s =>
        rw [hr] at hnodes
        exact .inl ⟨rfl, hnodes.1, by simp [Reading.fails, h₁, h₂, h₃, hnodes.2]⟩
    | error e =>
        rw [hr] at hnodes
        exact .inr hnodes

/-- The callback does not fail. -/
def Callback.Harmless (cb : Callback σ) : Prop := ∀ p e c, FAILED (cb p e c).1 = false

/-- **A scan that no callback ends** fails if and only if a call other than `Read` fails, and succeeds
with `0`, whatever the last `Read` returned. -/
theorem Callback.Harmless.scanXmlStream (hcb : cb.Harmless) (rd : Reading) :
    FAILED (Xml.scanXmlStream cb rd c).1 = rd.fails ∧
      (rd.fails = false → (Xml.scanXmlStream cb rd c).1 = 0) := by
  have hkeeps : cb.Keeps (fun _ => True) fun e => FAILED e.1 = true ∧ rd.fails = true :=
    { fails := fun p e c _ h => absurd h (by rw [hcb]; decide)
      keeps := fun _ _ _ _ _ => trivial }
  obtain ⟨h₁, -, h₂⟩ | ⟨h₁, h₂⟩ :=
    hkeeps.scanXmlStream rd (fun _ _ h hf _ => ⟨h, hf⟩) trivial
  · exact ⟨by rw [h₁, h₂]; rfl, fun _ => h₁⟩
  · exact ⟨by rw [h₁, h₂], fun h => absurd (h.symm.trans h₂) (by decide)⟩

/-- **A scan reaches the end of a well-formed document** where it succeeds, if and only if the document is
well formed or a call other than `Read` fails: that `Read` failed goes unnoticed. -/
theorem scanXmlStream_reaches_end (hcb : cb.Harmless) (rd : Reading) :
    (FAILED (scanXmlStream cb rd c).1 = false → rd.last = S_FALSE) ↔
      rd.last = S_FALSE ∨ rd.fails = true := by
  rw [(hcb.scanXmlStream rd).1]
  constructor
  · intro h
    cases hf : rd.fails with
    | true => exact .inr rfl
    | false => exact .inl (h hf)
  · rintro (h | h) hf
    · exact h
    · exact absurd (hf.symm.trans h) (by decide)

end

end Xml
end ECSUtil
