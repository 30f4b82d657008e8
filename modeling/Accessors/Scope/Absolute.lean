/-!
Absolute paths. A path that starts with `self` or `super` is read from the module it stands in; any other
path is absolute already. Nothing climbs above the first segment of the module.
-/

namespace Accessors

/-- The path with a leading `self` or a leading run of `super` replaced by the module it means. -/
def absolutize (path module : List String) : List String :=
  match path with
  | "self" :: rest => module ++ rest
  | "super" :: _ =>
      let ups := (path.takeWhile (· == "super")).length
      module.take (max (module.length - ups) 1) ++ path.drop ups
  | _ => path

theorem absolutize_self (rest module : List String) :
    absolutize ("self" :: rest) module = module ++ rest := rfl

theorem absolutize_crate (rest module : List String) :
    absolutize ("crate" :: rest) module = "crate" :: rest := rfl

theorem absolutize_straight {first : String} {rest : List String} (noSelf : first ≠ "self") (noSuper : first ≠ "super")
    (module : List String) : absolutize (first :: rest) module = first :: rest := by
  unfold absolutize
  split <;> simp_all

/-- An absolute path is put together from the path and the module. -/
theorem mem_of_absolutize {path module : List String} {piece : String} (member : piece ∈ absolutize path module) :
    piece ∈ path ∨ piece ∈ module := by
  unfold absolutize at member
  split at member
  · next rest =>
      rcases List.mem_append.mp member with inModule | below
      · exact Or.inr inModule
      · exact Or.inl (List.mem_cons_of_mem "self" below)
  · rcases List.mem_append.mp member with inModule | below
    · exact Or.inr (List.mem_of_mem_take inModule)
    · exact Or.inl (List.mem_of_mem_drop below)
  · exact Or.inl member

end Accessors
