import Csl.Server.Database

/-! The script library: creating, changing and deleting canonical versions.

Every function changes the tables within a transaction of its caller.
-/

set_option autoImplicit false

namespace Csl.Server
open Csl.Shared Csl.Agent

inductive RegistryError where
  | alreadyExists (name : String)
  | invalidMeta (message : String)
  | notFound (name : String)
  deriving DecidableEq, Repr

variable (platform : Platform)

/-- `str` of the exception. -/
def RegistryError.text : RegistryError → String
  | .alreadyExists name => s!"script {platform.repr name} already exists"
  | .invalidMeta message => s!"invalid meta YAML: {message}"
  | .notFound name => s!"script {platform.repr name} not found"

def validateMeta (metaYaml : Option String) : Except RegistryError Unit :=
  match metaYaml with
  | none => .ok ()
  | some text => match platform.host.parseMetaYaml text with
    | .error message => .error (.invalidMeta message)
    | .ok _ => .ok ()

def isPersistent : Option String → Bool
  | none => false
  | some text => text ≠ "" && match platform.host.parseMetaYaml text with
    | .error _ => false
    | .ok _ => platform.saysPersistent text

def version (id : Nat) (name content : String) (metaYaml : Option String) (userId : Nat)
    (now : Timestamp) : Script :=
  { id, name, content, metaYaml, md5 := platform.host.md5 content,
    persistent := isPersistent platform metaYaml, updatedAt := now, updatedBy := userId }

theorem version_hashed (id : Nat) (name content : String) (metaYaml : Option String) (userId : Nat)
    (now : Timestamp) :
    (version platform id name content metaYaml userId now).md5 =
      platform.host.md5 (version platform id name content metaYaml userId now).content := rfl

def createScript (name content : String) (metaYaml : Option String) (userId : Nat) (now : Timestamp)
    (db : Tables platform) : Except RegistryError (Tables platform) :=
  match db.scripts.find name with
  | some _ => .error (.alreadyExists name)
  | none => match validateMeta platform metaYaml with
    | .error e => .error e
    | .ok () => .ok { db with
        scripts := db.scripts.put
          (version platform db.scripts.nextId name content metaYaml userId now)
          (version_hashed ..) }

def getScriptOrRaise (name : String) (db : Tables platform) : Except RegistryError Script :=
  match db.scripts.find name with
  | none => .error (.notFound name)
  | some script => .ok script

def updateScript (name content : String) (metaYaml : Option String) (userId : Nat) (now : Timestamp)
    (db : Tables platform) : Except RegistryError (Tables platform) :=
  match getScriptOrRaise platform name db with
  | .error e => .error e
  | .ok script => match validateMeta platform metaYaml with
    | .error e => .error e
    | .ok () => .ok { db with
        scripts := db.scripts.put
          (version platform script.id script.name content metaYaml userId now)
          (version_hashed ..) }

/-- The row goes together with the states that were cached for it, on every machine. -/
def deleteScript (name : String) (db : Tables platform) : Except RegistryError (Tables platform) :=
  match getScriptOrRaise platform name db with
  | .error e => .error e
  | .ok script => .ok { db with
      scripts := db.scripts.remove name
      targetStates := db.targetStates.filterMap fun key row =>
        if key.2 = script.id then none else some row }

inductive Edit where
  | create (name content : String) (metaYaml : Option String) (userId : Nat)
  | update (name content : String) (metaYaml : Option String) (userId : Nat)
  | delete (name : String)
  deriving DecidableEq, Repr

def Edit.attempt (now : Timestamp) (db : Tables platform) : Edit → Except RegistryError (Tables platform)
  | .create name content metaYaml userId => createScript platform name content metaYaml userId now db
  | .update name content metaYaml userId => updateScript platform name content metaYaml userId now db
  | .delete name => deleteScript platform name db

/-- A refused edit is rolled back. -/
def Edit.apply (now : Timestamp) (db : Tables platform) (edit : Edit) : Tables platform :=
  match edit.attempt platform now db with
  | .ok after => after
  | .error _ => db

/-- The version an edit makes canonical, if it is not refused. -/
inductive Edit.Publishes (now : Timestamp) (db : Tables platform) : Edit → Script → Prop where
  | created {name content : String} {metaYaml : Option String} {userId : Nat} :
      db.scripts.find name = none → validateMeta platform metaYaml = .ok () →
      Publishes now db (.create name content metaYaml userId)
        (version platform db.scripts.nextId name content metaYaml userId now)
  | updated {name content : String} {metaYaml : Option String} {userId : Nat} {script : Script} :
      db.scripts.find name = some script → validateMeta platform metaYaml = .ok () →
      Publishes now db (.update name content metaYaml userId)
        (version platform script.id script.name content metaYaml userId now)

theorem Edit.find_apply {now : Timestamp} {db : Tables platform} {edit : Edit} {name : String}
    {script : Script} (found : (edit.apply platform now db).scripts.find name = some script) :
    db.scripts.find name = some script ∨
      (edit.Publishes platform now db script ∧ script.name = name) := by
  cases edit with
  | create target content metaYaml userId =>
    simp only [apply, attempt, createScript] at found
    split at found
    next after done =>
      split at done
      · cases done
      next unused =>
        split at done
        · cases done
        next valid =>
          obtain rfl := Except.ok.inj done
          -- the row that is found is the new one or another's
          rw [Library.find_put] at found
          split at found
          next same =>
            obtain rfl := Option.some.inj found
            exact .inr ⟨.created unused valid, same.symm⟩
          · exact .inl found
    · exact .inl found
  | update target content metaYaml userId =>
    simp only [apply, attempt, updateScript, getScriptOrRaise] at found
    split at found
    next after done =>
      split at done
      · cases done
      next row looked =>
        split at done
        · cases done
        next valid =>
          obtain rfl := Except.ok.inj done
          rw [Library.find_put] at found
          split at looked
          · cases looked
          next held =>
            obtain rfl := Except.ok.inj looked
            split at found
            next same =>
              obtain rfl := Option.some.inj found
              exact .inr ⟨.updated held valid, same.symm⟩
            · exact .inl found
    · exact .inl found
  | delete target =>
    simp only [apply, attempt, deleteScript] at found
    split at found
    next after done =>
      split at done
      · cases done
      · obtain rfl := Except.ok.inj done
        rw [Library.find_remove] at found
        split at found
        · cases found
        · exact .inl found
    · exact .inl found

end Csl.Server
