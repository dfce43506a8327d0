/-
# A document that is written and read back

What the calls of `IXmlWriter` write, as `IXmlReader` gives it back.  A text that is only white
space is a node of its own, which `ScanXmlStream` passes over, and an empty text is no node at
all.

A callback that looks its texts up by their paths does to the context what it does for the path of each
element (`Reads.writeElement`).
-/

import ECSUtil.Xml.Document

namespace ECSUtil
namespace Xml

/-- White space of XML. -/
def isXmlSpace (c : Char) : Bool := c = ' ' || c = '\t' || c = '\r' || c = '\n'

/-- Nothing but white space. -/
def blank (value : CString) : Bool := value.all isXmlSpace

/-- `WriteString`, read back. -/
def writeString (value : CString) : List Node :=
  if value = [] then []
  else if blank value then [.other]
  else [.text { value := value }]

/-- An element that holds a text. -/
def writeElement (name value : CString) : List Node := tree name (writeString value)

/-- What is found for a path, in the order that the paths are compared. -/
def findPath {φ : Type} (texts : List (String × φ)) (sXmlPath : CString) : Option φ :=
  (texts.find? fun t => compareNoCase sXmlPath t.1.toList).map Prod.snd

/-- A document that the reader reads without a failure. -/
def document (nodes : List Node) : Reading where
  nodes := .other :: nodes
  last := S_FALSE
  last_ne := S_FALSE_ne_S_OK

variable {σ : Type} {cb : Callback σ} {stack : List CString} {nodes : List Node} {f : σ → σ}

/-- A text. -/
theorem Reads.writeString (hcb : cb.Harmless) (value : CString) :
    Reads cb stack (Xml.writeString value)
      (if blank value then id else cb.next stack (.text value)) := by
  unfold Xml.writeString
  by_cases hnil : value = []
  · rw [if_pos hnil, hnil]
    exact Reads.nil
  · rw [if_neg hnil]
    split_ifs
    · exact Reads.other
    · exact Reads.text hcb value

/-- **An element with a text.** The text of an element is a text node unless it is empty or only
white space, so the callback is told of two or of three events. -/
theorem Reads.writeElement (hcb : cb.Harmless) (name value : CString) :
    Reads cb stack (Xml.writeElement name value)
      (cb.next (stack ++ [name]) .endElement ∘
        (if blank value then id else cb.next (stack ++ [name]) (.text value)) ∘
          cb.next (stack ++ [name]) (.element [])) :=
  Reads.tree hcb (Reads.writeString hcb value)

/-- **A document.** The declaration is no event of the callback, and the reader ends with `S_FALSE`,
which is no failure. -/
theorem Reads.document (h : Reads cb [] nodes f) (c : σ) :
    Xml.scanXmlStream cb (Xml.document nodes) c = (0, f c) :=
  Reads.scanXmlStream (Reads.other.append h) S_FALSE S_FALSE_ne_S_OK c

end Xml
end ECSUtil
