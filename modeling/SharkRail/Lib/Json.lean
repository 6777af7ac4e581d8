import Mathlib

/-!
# Values of a configuration

The values that a program holds after it has parsed a configuration file, whose strings are texts in Unicode, and the members of a table.
-/

/-- A float. A finite one is its exact value. -/
inductive PyFloat where
  | finite (q : ℚ)
  | inf (negative : Bool)
  | nan
  deriving DecidableEq

inductive Json where
  | null
  | bool (b : Bool)
  | int (n : Int)
  | float (x : PyFloat)
  | str (s : String)
  | arr (items : List Json)
  | obj (members : List (String × Json))

namespace Json

mutual

/-- Equality of JSON values is decidable. -/
def decEq : (a b : Json) → Decidable (a = b)
  | null, null => isTrue rfl
  | bool a, bool b => decidable_of_iff (a = b) (by simp)
  | int a, int b => decidable_of_iff (a = b) (by simp)
  | float a, float b => decidable_of_iff (a = b) (by simp)
  | str a, str b => decidable_of_iff (a = b) (by simp)
  | arr a, arr b => match decEqItems a b with
    | isTrue h => isTrue (by rw [h])
    | isFalse h => isFalse (by simpa using h)
  | obj a, obj b => match decEqMembers a b with
    | isTrue h => isTrue (by rw [h])
    | isFalse h => isFalse (by simpa using h)
  | null, bool _ | null, int _ | null, float _ | null, str _ | null, arr _ | null, obj _ => isFalse nofun
  | bool _, null | bool _, int _ | bool _, float _ | bool _, str _ | bool _, arr _ | bool _, obj _ => isFalse nofun
  | int _, null | int _, bool _ | int _, float _ | int _, str _ | int _, arr _ | int _, obj _ => isFalse nofun
  | float _, null | float _, bool _ | float _, int _ | float _, str _ | float _, arr _ | float _, obj _ =>
    isFalse nofun
  | str _, null | str _, bool _ | str _, int _ | str _, float _ | str _, arr _ | str _, obj _ => isFalse nofun
  | arr _, null | arr _, bool _ | arr _, int _ | arr _, float _ | arr _, str _ | arr _, obj _ => isFalse nofun
  | obj _, null | obj _, bool _ | obj _, int _ | obj _, float _ | obj _, str _ | obj _, arr _ => isFalse nofun

def decEqItems : (a b : List Json) → Decidable (a = b)
  | [], [] => isTrue rfl
  | [], _ :: _ => isFalse nofun
  | _ :: _, [] => isFalse nofun
  | x :: xs, y :: ys => match decEq x y, decEqItems xs ys with
    | isTrue h, isTrue h' => isTrue (by rw [h, h'])
    | isFalse h, _ => isFalse (fun e => h (List.cons.inj e).1)
    | _, isFalse h => isFalse (fun e => h (List.cons.inj e).2)

def decEqMembers : (a b : List (String × Json)) → Decidable (a = b)
  | [], [] => isTrue rfl
  | [], _ :: _ => isFalse nofun
  | _ :: _, [] => isFalse nofun
  | (k, x) :: xs, (l, y) :: ys => match decEq x y, decEqMembers xs ys with
    | isTrue h, isTrue h' =>
      if hk : k = l then isTrue (by rw [h, h', hk])
      else isFalse (fun e => hk (Prod.mk.inj (List.cons.inj e).1).1)
    | isFalse h, _ => isFalse (fun e => h (Prod.mk.inj (List.cons.inj e).1).2)
    | _, isFalse h => isFalse (fun e => h (List.cons.inj e).2)

end

instance : DecidableEq Json := decEq

/-! ## Members of an object -/

/-- `members.get(key)`: the value under a key, `none` where the key is absent. -/
def get? (members : List (String × Json)) (key : String) : Option Json :=
  (members.find? (fun m => m.1 = key)).map (·.2)

/-- `members[key] = value`: the member under the key replaced in its place, or a new last one. -/
def set (members : List (String × Json)) (key : String) (value : Json) : List (String × Json) :=
  if members.any (fun m => m.1 = key) then members.map (fun m => if m.1 = key then (key, value) else m)
  else members ++ [(key, value)]

end Json
