/-
# Deleting many objects

`DeleteS3`, `DeleteS3Internal`, `DeleteS3Send` and `XmlDeleteS3CB`
(`ECSUtil/ECSConnection.cpp`), and `S3_DELETE_ENTRY` (`ECSUtil/ECSConnection.h`).  What
`DirListing` and the POST requests return is a parameter, a server with a state of its own
(`Server`); the calls of the XML writer succeed.

A server reads the body of a request, which goes through the code page on its way: `GetXml` takes the
UTF-8 of the writer for bytes of the code page, and they are encoded once more.  So of a key that is
not ASCII it reads another one (`Post.received`).

A folder is listed to any depth, so the recursion is given a number of levels, and has no result
where they are not enough.  The entries collected and the requests as they are written are kept in a
log.
-/

import Mathlib.Data.Char
import Mathlib.Data.List.Lex
import Mathlib.Data.List.Sort
import Mathlib.Data.Prod.Lex
import ECSUtil.Lib.Batch
import ECSUtil.Lib.CodePage
import ECSUtil.Listing.Callback
import ECSUtil.Xml.ErrorBody
import ECSUtil.Xml.Errors

namespace ECSUtil
namespace Delete

open Xml

/-- `S3_DELETE_ENTRY`. -/
structure S3DeleteEntry where
  sKey : CString
  sVersionId : CString := []
  deriving DecidableEq, Repr

/-- What `S3_DELETE_ENTRY::Compare` compares. -/
def S3DeleteEntry.toPair (e : S3DeleteEntry) : CString ×ₗ CString := toLex (e.sKey, e.sVersionId)

/-- What is compared of an entry is all of it, so the order is a total one. -/
theorem S3DeleteEntry.toPair_injective : Function.Injective S3DeleteEntry.toPair := by
  rintro ⟨k, v⟩ ⟨k', v'⟩ h
  obtain ⟨rfl, rfl⟩ := Prod.mk.inj (toLex.injective h)
  rfl

instance : LinearOrder S3DeleteEntry :=
  LinearOrder.lift' S3DeleteEntry.toPair S3DeleteEntry.toPair_injective

def MaxS3DeleteObjects : ℕ := 1000

/-- What a POST deletes: the objects of a bucket. -/
structure Post where
  sBucket : CString
  objects : List S3DeleteEntry
  deriving DecidableEq, Repr

/-- An object as a server reads it, of a body that goes through a code page. -/
def S3DeleteEntry.received (page : CodePage) (e : S3DeleteEntry) : S3DeleteEntry where
  sKey := page.recode e.sKey
  sVersionId := page.recode e.sVersionId

/-- A request as a server reads it. -/
def Post.received (page : CodePage) (p : Post) : Post :=
  { p with objects := p.objects.map (S3DeleteEntry.received page) }

/-- What the requests return, from a state to the next, and the code page that bodies go through. -/
structure Server (σ : Type) where
  page : CodePage
  dirListing : CString → σ → (S3Error × List Listing.DirEntry) × σ
  post : Post → σ → Reply × σ

/-- What is collected, and what is sent, as it is written. -/
inductive Event
  | collect (e : S3DeleteEntry)
  | post (p : Post)
  deriving DecidableEq, Repr

/-- The server, and `S3DeletePathList`. -/
structure State (σ : Type) where
  server : σ
  S3DeletePathList : List S3DeleteEntry := []
  log : List Event := []

/-- Why there is no result: an error was thrown, or the levels were not enough. -/
inductive Stop
  | thrown (Error : S3Error)
  | levels
  deriving DecidableEq, Repr

/-- `XML_DELETES3_ENTRY`. -/
structure XmlDeleteS3Entry where
  sKey : CString := []
  Error : S3ErrorType := .unknown
  sCode : CString := []
  sMessage : CString := []
  sRequestId : CString := []
  sHostId : CString := []
  deriving DecidableEq, Repr

/-- `XML_DELETES3_CONTEXT`. -/
structure XmlDeleteS3Context where
  ErrorList : List XmlDeleteS3Entry := []
  Rec : XmlDeleteS3Entry := {}
  deriving DecidableEq, Repr

/-- The texts of an error by their paths, in the order they are looked at. -/
def deleteS3Texts : List (String × (XmlDeleteS3Entry → CString → XmlDeleteS3Entry)) :=
  [("Code", fun r value => { r with sCode := value, Error := s3TranslateError value }),
    ("Message", fun r value => { r with sMessage := value }),
    ("RequestId", fun r value => { r with sRequestId := value }),
    ("HostId", fun r value => { r with sHostId := value }),
    ("Key", fun r value => { r with sKey := value })]

/-- `XmlDeleteS3CB`. -/
def xmlDeleteS3CB : Callback XmlDeleteS3Context := fun sXmlPath e c =>
  match e with
  | .text value =>
      match deleteS3Texts.find? fun t =>
          compareNoCase sXmlPath ("//DeleteResult/Error/" ++ t.1).toList with
      | some t => (0, { c with Rec := t.2 c.Rec value })
      | none => (0, c)
  | .element _ =>
      if compareNoCase sXmlPath "//DeleteResult/Error".toList then (0, { c with Rec := {} })
      else (0, c)
  | .endElement =>
      if compareNoCase sXmlPath "//DeleteResult/Error".toList then
        (0, { c with ErrorList := c.ErrorList ++ [c.Rec], Rec := {} })
      else (0, c)

/-- `std::list::unique`. -/
def unique {α : Type} [DecidableEq α] : List α → List α
  | a :: b :: l => if a = b then unique (b :: l) else a :: unique (b :: l)
  | l => l

/-- The bucket of a key, which is behind the first character. -/
def bucketOf : CString → Option CString
  | [] => none
  | _ :: rest => if '/' ∈ rest then some (rest.takeWhile (· ≠ '/')) else none

/-- The objects of a request, in the order of the entries, and their bucket. -/
def objectsOf : CString → List S3DeleteEntry → Except S3Error Post
  | sBucket, [] => .ok ⟨sBucket, []⟩
  | sBucket, e :: rest =>
      match if sBucket = [] then bucketOf e.sKey else some sBucket with
      | none => .error (.ofWin32 ERROR_INVALID_DATA)
      | some sBucket =>
          -- We are always in the same bucket.
          if ('/' :: sBucket ++ ['/']).isPrefixOf e.sKey then
            (objectsOf sBucket rest).map fun p =>
              { p with objects := { e with sKey := e.sKey.drop (sBucket.length + 2) } :: p.objects }
          else .error (.ofWin32 ERROR_INVALID_DATA)

/-- The error that the reply to a POST is taken for. -/
def postError (reply : Reply) : Option S3Error :=
  if reply.error.ifError then some reply.error
  else
    let r := scanXmlStream xmlDeleteS3CB reply.reading {}
    match Test.failed.leaves r.1, r.2.ErrorList with
    | some Error, _ => some Error
    | none, [] => none
    | none, first :: _ => some { reply.error with dwHttpError := 500, s3Error := first.Error }

section

variable {σ : Type} (srv : Server σ)

/-- `DeleteS3Send`. -/
def deleteS3Send (s : State σ) : Except Stop (State σ) :=
  if s.S3DeletePathList = [] then .ok s
  else
    let list := unique (s.S3DeletePathList.insertionSort (· ≤ ·))
    match objectsOf [] (list.reverse.take MaxS3DeleteObjects) with
    | .error Error => .error (.thrown Error)
    | .ok p =>
        let (reply, server) := srv.post (p.received srv.page) s.server
        match postError reply with
        | some Error => .error (.thrown Error)
        | none =>
            .ok
              { server := server
                S3DeletePathList := list.take (list.length - MaxS3DeleteObjects)
                log := s.log ++ [.post p] }

/-- An entry is collected. -/
def collect (e : S3DeleteEntry) (s : State σ) : Except Stop (State σ) :=
  let s := { s with
    S3DeletePathList := s.S3DeletePathList ++ [e]
    log := s.log ++ [.collect e] }
  if MaxS3DeleteObjects < s.S3DeletePathList.length then deleteS3Send srv s else .ok s

/-- An entry of a folder's listing. -/
def child (sKey : CString) (e : Listing.DirEntry) : S3DeleteEntry :=
  { sKey := sKey ++ e.sName ++ if e.bDir then ['/'] else [] }

/-- One turn of the loop of `DeleteS3Internal`. -/
def deletePath (deleteS3Internal : List S3DeleteEntry → State σ → Except Stop (State σ))
    (s : State σ) (e : S3DeleteEntry) : Except Stop (State σ) :=
  if e.sKey.getLast? = some '/' then
    let ((Error, DirList), server) := srv.dirListing e.sKey s.server
    let s := { s with server := server }
    if Error.ifError && !Error.ifNotFound then .error (.thrown Error)
    else if !Error.ifError then deleteS3Internal (DirList.map (child e.sKey)) s >>= collect srv e
    else collect srv e s
  else collect srv e s

/-- `DeleteS3Internal`. -/
def deleteS3Internal : ℕ → List S3DeleteEntry → State σ → Except Stop (State σ)
  | 0, _, _ => .error .levels
  | level + 1, pathList, s => pathList.foldlM (deletePath srv (deleteS3Internal level)) s

/-- `DeleteS3`, of a list. -/
def deleteS3 (level : ℕ) (pathList : List S3DeleteEntry) (server : σ) : Except Stop (State σ) :=
  deleteS3Internal srv level pathList { server := server } >>= deleteS3Send srv

end

end Delete
end ECSUtil
