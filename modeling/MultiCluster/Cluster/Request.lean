import MultiCluster.Json.Basic
import MultiCluster.Program
import MultiCluster.Time.Duration
import MultiCluster.Text.Join

/-! Requests to the API of a cluster, and the replies to them. -/
namespace MultiCluster.Cluster

inductive Method where
  | get | post | put | patch | delete
  deriving DecidableEq, Repr

def Method.name : Method → String
  | .get => "GET"
  | .post => "POST"
  | .put => "PUT"
  | .patch => "PATCH"
  | .delete => "DELETE"

def Method.all : List Method := [.get, .post, .put, .patch, .delete]

def Method.ofName? (name : String) : Option Method := all.find? fun m => m.name == name

abbrev Path := List String

def Path.text (p : Path) : String := "/" ++ Text.join "/" p

inductive PatchType where
  /-- Server-side apply: creates what is absent. -/
  | apply
  /-- JSON merge patch. -/
  | merge
  deriving DecidableEq, Repr

def PatchType.contentType : PatchType → String
  | .apply => "application/apply-patch+yaml"
  | .merge => "application/merge-patch+json"

structure Request where
  method : Method
  path : Path
  query : List (String × String)
  patch : Option PatchType
  body : Option Json
  deriving DecidableEq, Repr

inductive Reply where
  | document (code : Nat) (body : Json)
  | text (code : Nat) (body : String)
  /-- No reply: the connection failed. -/
  | broken (reason : String)
  deriving DecidableEq, Repr

inductive Call where
  | send (r : Request)
  | pause (wait : Duration)
  deriving DecidableEq, Repr

def Calls : Interface where
  Request := Call
  Answer
    | .send _ => Reply
    | .pause _ => Unit

def send (r : Request) : Program Calls Reply := .ask (I := Calls) (.send r) .done

def pause (wait : Duration) : Program Calls Unit := .ask (I := Calls) (.pause wait) .done

end MultiCluster.Cluster
