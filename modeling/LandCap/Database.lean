import LandCap.Library.PathTree

/-!
# The realtime database

Firebase's database is one tree of values.  `Leaf` lists the kinds of value the app stores, a
`Database` is a `PathTree.Tree` of them, and a reference is the list of keys from the root.

`child` follows a reference the way `DatabaseReference.child` does, splitting its argument at the
slashes, so that `child [] "users/u/profileUrl"` and `child (child [] "users") "u"` can be
compared.  The two casts the code applies to a snapshot are `asDictionary` (`as? NSDictionary`)
and, for the value of one key, `Leaf.asInt` and `Leaf.asString`.

A user id reaches the code as a `String` inside such paths; `UserID` records that the ids Firebase
hands out are non-empty and contain no slash, which is what keeps `users/u` one level deep.
-/

set_option autoImplicit false

namespace LandCap

open PathTree

/-- A value stored at a leaf of the database. -/
inductive Leaf where
  | string (s : String)
  | int (n : ℤ)
  | bool (b : Bool)
  deriving DecidableEq, Repr

/-- `as? Int`.  A boolean is an `NSNumber` as well, and casts to `0` or `1`. -/
def Leaf.asInt : Leaf → Option ℤ
  | .int n => some n
  | .bool b => some (if b then 1 else 0)
  | .string _ => none

/-- `as? String`. -/
def Leaf.asString : Leaf → Option String
  | .string s => some s
  | _ => none

/-- The whole database, or the part of it a snapshot holds. -/
abbrev Database := Tree String Leaf

/-- `snapshot.value as? NSDictionary`: `none` when the node is missing or is a single value. -/
def asDictionary (value : Database) : Option Database :=
  if HasChildren value then some value else none

theorem asDictionary_eq_none_iff {value : Database} :
    asDictionary value = none ↔ ¬HasChildren value := by
  simp [asDictionary]

theorem asDictionary_eq_some {value d : Database} (h : asDictionary value = some d) :
    d = value ∧ HasChildren value := by
  rw [asDictionary] at h
  split at h
  · rename_i hc; exact ⟨(Option.some.inj h).symm, hc⟩
  · exact absurd h (by simp)

/-- The value a dictionary holds under a key, when it is a plain value. -/
def valueFor (d : Database) (key : String) : Option Leaf := leaf? (snapshot [key] d)

/-! ## References -/

/-- The keys a path such as `users/u/name` is made of. -/
def components (path : String) : List String :=
  ((path.toList.splitOn '/').filter (· ≠ [])).map String.ofList

/-- `DatabaseReference.child`. -/
def child (ref : List String) (path : String) : List String := ref ++ components path

theorem components_append_slash (a b : String) :
    components (a ++ "/" ++ b) = components a ++ components b := by
  have h : (a ++ "/" ++ b).toList = a.toList ++ '/' :: b.toList := by simp
  rw [components, h, List.splitOn, List.splitOnP_append_cons _ _ (by simp), List.filter_append,
    List.map_append]
  rfl

/-- A Firebase user id. -/
structure UserID where
  /-- The id as the code sees it. -/
  val : String
  /-- It is not empty. -/
  ne_empty : val ≠ ""
  /-- It has no slash in it. -/
  no_slash : '/' ∉ val.toList
  deriving DecidableEq

theorem UserID.ext {u v : UserID} (h : u.val = v.val) : u = v := by
  cases u; cases v; congr

@[simp] theorem components_userID (u : UserID) : components u.val = [u.val] := by
  have h : u.val.toList.splitOn '/' = [u.val.toList] :=
    List.splitOnP_eq_singleton (fun c hc ↦ by
      simpa using fun he : c = '/' ↦ u.no_slash (he ▸ hc))
  have hne : u.val.toList ≠ [] := fun h ↦ u.ne_empty (by simpa using h)
  rw [components, h]
  simp [hne]

/-- A user, for the examples. -/
def alice : UserID := ⟨"alice", by decide, by decide⟩

/-- A guest, for the examples. -/
def guest : UserID := ⟨"guest", by decide, by decide⟩

/-- `ref.child("users").child(userID)`. -/
def userRef (userID : UserID) : List String := child (child [] "users") userID.val

/-- `ref.child("users").child(userID).child("photoLimit")`. -/
def photoLimitRef (userID : UserID) : List String := child (userRef userID) "photoLimit"

/-- `ref.child("users/\(user.Key!)/name")`. -/
def nameRef (userID : UserID) : List String := child [] ("users/" ++ userID.val ++ "/name")

/-- `ref.child("users/\(userID!)/profileUrl")`. -/
def profileUrlRef (userID : UserID) : List String :=
  child [] ("users/" ++ userID.val ++ "/profileUrl")

/-- `ref.child("users").child(userID).child("images")`. -/
def imagesRef (userID : UserID) : List String := child (userRef userID) "images"

theorem userRef_eq (u : UserID) : userRef u = ["users", u.val] := by
  have h : components "users" = ["users"] := by decide
  simp [userRef, child, h]

/-- Interpolating an id into a path leads to the same node as following it step by step. -/
theorem child_interpolated (u : UserID) (key : String) :
    child [] ("users/" ++ u.val ++ "/" ++ key) = userRef u ++ components key := by
  have hu : components ("users/" ++ u.val) = ["users", u.val] := by
    have h : components "users" = ["users"] := by decide
    have := components_append_slash "users" u.val
    rw [h, components_userID] at this
    exact this
  rw [child, components_append_slash, hu, userRef_eq, List.nil_append]

theorem photoLimitRef_eq (u : UserID) : photoLimitRef u = userRef u ++ ["photoLimit"] := by
  have h : components "photoLimit" = ["photoLimit"] := by decide
  rw [photoLimitRef, child, h]

theorem imagesRef_eq (u : UserID) : imagesRef u = userRef u ++ ["images"] := by
  have h : components "images" = ["images"] := by decide
  rw [imagesRef, child, h]

theorem nameRef_eq (u : UserID) : nameRef u = userRef u ++ ["name"] := by
  have h : components "name" = ["name"] := by decide
  have hs : "users/" ++ u.val ++ "/name" = "users/" ++ u.val ++ "/" ++ "name" := by
    rw [String.append_assoc, String.append_assoc, String.append_assoc]; rfl
  rw [nameRef, hs, child_interpolated, h]

theorem profileUrlRef_eq (u : UserID) : profileUrlRef u = userRef u ++ ["profileUrl"] := by
  have h : components "profileUrl" = ["profileUrl"] := by decide
  have hs : "users/" ++ u.val ++ "/profileUrl" = "users/" ++ u.val ++ "/" ++ "profileUrl" := by
    rw [String.append_assoc, String.append_assoc, String.append_assoc]; rfl
  rw [profileUrlRef, hs, child_interpolated, h]

/-- **Different users have different branches.** -/
theorem not_meet_of_ne {u v : UserID} (h : u ≠ v) (p q : List String) :
    ¬Meet (userRef u ++ p) (userRef v ++ q) := by
  rw [userRef_eq, userRef_eq]
  exact not_meet_append_cons ["users"] fun he ↦ h (UserID.ext he)

end LandCap
