import KeywordDocs.Discovery.Source
import KeywordDocs.Page.Template
import KeywordDocs.Report.Problem

/-!
# Sessions

A run of the program as a computation over a disk: what it writes and says up to a failure stays written
and said.
-/

namespace KeywordDocs.Command

open Files Report Highlight Discovery

inductive Server where
  | ends
  | interrupted
  | fails (message : String)

/-- What a run meets. `refuses` is the console, which can fail at a line of markup. What reads and colours
sources is given too: the interpreter behind `inspector` and `loader` keeps what it has imported, so both
are told which libraries were `taken` up before. -/
structure Conditions where
  styled : Bool := true
  template : String := Page.pageTemplate
  now : String
  server : Server := .ends
  processors : Nat := 4
  refuses : String → Option Failure := fun _ => none
  shader : Shader := standardShader
  inspector : List Json → Inspector := fun _ => inspect
  loader : List Json → Loader := fun _ => Module.load
  taken : List Json := []

/-- The conditions for the libraries that follow this one in the same run. -/
def Conditions.after (c : Conditions) (entry : Json) : Conditions := { c with taken := c.taken ++ [entry] }

structure Session where
  disk : Disk
  said : List Output := []

abbrev Run := ExceptT Failure (StateM Session)

def Session.outputs (s : Session) : List Output := s.said.reverse

def say (o : Output) : Run Unit := modify fun s => { s with said := o :: s.said }

def sayEither (c : Conditions) (styled : Output) (plain : List String) : Run Unit :=
  if c.styled then say styled else plain.forM fun line => say (.plain line)

def report (c : Conditions) (p : Problem) : Run Unit := (p.outputs c.styled).forM say

def orFail {α : Type} : Except Failure α → Run α
  | .ok a => return a
  | .error e => throw e

def require {α : Type} (failure : Fault → Failure) (r : Except Fault α) : Run α := orFail (r.mapError failure)

def onDisk (failure : Fault → Failure) (change : Disk → Except Fault Disk) : Run Unit := do
  let disk ← require failure (change (← get).disk)
  modify fun s => { s with disk }

def ensureDirectory (p : Path) : Run Unit := onDisk (.ofFile p.toText) (·.ensureDirectory p)

def writeText (path text : String) : Run Unit := onDisk (.ofFile path) (·.writeText path text)

def donePanel (title text : String) : Output := colouredPanel "green" title (panelText text)

end KeywordDocs.Command
