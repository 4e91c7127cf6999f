import Agenda.Failure
import Agenda.Settings.Ini

/-!
# References between settings

A value may refer to another option of its section: `%(key)s` stands for the value of `key`, which
may hold references itself, and `%%` stands for a percent sign.  A percent sign means nothing
else.  References that lead on for more than ten values are taken to have no end.
-/

namespace Agenda.Settings

namespace Reference

/-- A text with its references replaced, by a rule for one reference. -/
def replace (resolve : String → Except Failure (List Char)) :
    List Char → Except Failure (List Char)
  | [] => .ok []
  | '%' :: '%' :: rest => do return '%' :: (← replace resolve rest)
  | '%' :: '(' :: body =>
    match _h : body.dropWhile (· != ')') with
    | ')' :: 's' :: rest =>
      let key := body.takeWhile (· != ')')
      if key.isEmpty then .error .badReference
      else do
        let value ← resolve (Text.toLower (String.ofList key))
        return value ++ (← replace resolve rest)
    | _ => .error .badReference
  | '%' :: _ => .error .badReference
  | c :: rest => do return c :: (← replace resolve rest)
termination_by cs => cs.length
decreasing_by
  · simp only [List.length_cons]; omega
  · have shorter := (List.dropWhile_suffix (l := body) (· != ')')).length_le
    simp only [_h, List.length_cons] at shorter
    simp only [List.length_cons]
    omega
  · simp

/-- The most values that references lead through. -/
def maxDepth : Nat := 10

/-- A text with its references replaced, through a number of values. -/
def expandTo (value? : String → Option String) : Nat → List Char → Except Failure (List Char)
  | 0, _ => .error .deepReference
  | depth + 1, cs =>
    replace (fun key =>
      match value? key with
      | none => .error .missingReference
      | some v => if v.toList.contains '%' then expandTo value? depth v.toList else .ok v.toList) cs

def expand (value? : String → Option String) (s : String) : Except Failure String :=
  (expandTo value? maxDepth s.toList).map String.ofList

end Reference

/-- The value of an option with its references replaced, if the option is there.  The key may be
in any letter case.  The values of a file that was not read to its end cannot be used. -/
def Ini.get? (ini : Ini) (name key : String) : Except Failure (Option String) :=
  match ini.raw? name (Text.toLower key) with
  | none => .ok none
  | some s =>
    if ini.brokenOff then .error .unfinishedSetting
    else (Reference.expand (ini.raw? name) s).map some

end Agenda.Settings
