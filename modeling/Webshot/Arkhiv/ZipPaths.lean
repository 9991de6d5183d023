import Webshot.Foundation.Splitting
import Webshot.Text.Bytes

/-! `IsAllowedZipPath`: the paths that an archive may hold. -/
namespace Webshot.Arkhiv
open Text Foundation.Splitting

def backslash : Byte := 92

/-- The checks where a component ends. -/
def componentEnds (path : Bytes) (index componentStart : Nat) : Bool :=
  let componentSize := index - componentStart
  if componentSize = 0 then false
  else
    let component := (path.drop componentStart).take componentSize
    !(component = [dot] || component = [dot, dot])

/-- The loop of `IsAllowedZipPath`, for the rounds that are left of one for each octet and one for the end. -/
def componentsAllowed (path : Bytes) : (rounds index componentStart : Nat) → Bool
  | 0, _, _ => true
  | rounds + 1, index, componentStart =>
    match path[index]? with
    | some ch =>
      if ch = backslash then false
      else if ch.val < 0x20 || ch.val = 0x7f then false
      else if ch ≠ slash then componentsAllowed path rounds (index + 1) componentStart
      else componentEnds path index componentStart && componentsAllowed path rounds (index + 1) (index + 1)
    | none => componentEnds path index componentStart && componentsAllowed path rounds (index + 1) (index + 1)

def isAllowedZipPath (path : Bytes) : Bool :=
  if path.isEmpty || path = [dot] || path = [dot, dot] then false
  else if path.head? = some slash || path.head? = some backslash then false
  else if path.getLast? = some slash || path.getLast? = some backslash then false
  else componentsAllowed path (path.length + 1) 0 0

/-- An octet that may stand in a component. -/
def PlainOctet (b : Byte) : Prop := b ≠ slash ∧ b ≠ backslash ∧ 0x20 ≤ b.val ∧ b.val ≠ 0x7f

/-- A name that leads one step down. -/
structure AllowedComponent (component : Bytes) : Prop where
  nonempty : component ≠ []
  not_dot : component ≠ [dot]
  not_dots : component ≠ [dot, dot]
  plain : ∀ b ∈ component, PlainOctet b

section Components
variable {path : Bytes} (h : ∀ c ∈ path.splitOn slash, AllowedComponent c)
include h

theorem plain_of_components {b : Byte} (hb : b ∈ path) (hslash : b ≠ slash) : PlainOctet b := by
  have hmem : b ∈ [slash].intercalate (path.splitOn slash) := by
    rw [List.intercalate_splitOn]
    exact hb
  obtain ⟨c, hc, hin⟩ := (mem_intercalate hmem).resolve_left hslash
  exact (h c hc).plain b hin

/-- A path of allowed components passes the tests in front of the loop. -/
theorem guards_of_components :
    path ≠ [] ∧ path ≠ [dot] ∧ path ≠ [dot, dot] ∧ path.head? ≠ some slash ∧ path.head? ≠ some backslash ∧
      path.getLast? ≠ some slash ∧ path.getLast? ≠ some backslash := by
  have hback : backslash ∉ path := fun hmem => (plain_of_components h hmem (by decide)).2.1 rfl
  refine ⟨?_, ?_, ?_, ?_, ?_, ?_, ?_⟩
  · rintro rfl
    exact (h [] (List.mem_singleton_self _)).nonempty rfl
  · rintro rfl
    exact (h [dot] (by decide)).not_dot rfl
  · rintro rfl
    exact (h [dot, dot] (by decide)).not_dots rfl
  · intro hhead
    obtain ⟨rest, rfl⟩ := List.head?_eq_some_iff.mp hhead
    have hfirst : [] ∈ ([] ++ slash :: rest : Bytes).splitOn slash := by
      rw [List.splitOn_append_cons_self_of_not_mem List.not_mem_nil]
      exact List.mem_cons_self
    exact (h [] hfirst).nonempty rfl
  · exact fun hhead => hback (List.mem_of_mem_head? hhead)
  · intro hlast
    obtain ⟨front, rfl⟩ := List.getLast?_eq_some_iff.mp hlast
    have hend : [] ∈ (front ++ slash :: [] : Bytes).splitOn slash := by
      rw [List.splitOn_append_cons_self]
      exact List.mem_append_right _ List.mem_cons_self
    exact (h [] hend).nonempty rfl
  · exact fun hlast => hback (List.mem_of_mem_getLast? hlast)

end Components

section Loop
variable {before component rest : Bytes}

theorem componentEnds_iff (hplain : ∀ b ∈ component, PlainOctet b) :
    componentEnds (before ++ (component ++ rest)) (before.length + component.length) before.length = true ↔
      AllowedComponent component := by
  have hsize : before.length + component.length - before.length = component.length := Nat.add_sub_cancel_left ..
  have htake : ((before ++ (component ++ rest)).drop before.length).take component.length = component := by
    rw [List.drop_left, List.take_left]
  simp only [componentEnds, hsize, htake]
  constructor
  · intro h
    split at h
    · cases h
    · rename_i hne
      simp only [Bool.not_eq_true', Bool.or_eq_false_iff, decide_eq_false_iff_not] at h
      exact ⟨fun hnil => hne (by rw [hnil]; rfl), h.1, h.2, hplain⟩
  · intro h
    have hne : component.length ≠ 0 := fun hzero => h.nonempty (List.length_eq_zero_iff.mp hzero)
    rw [if_neg hne, decide_eq_false h.not_dot, decide_eq_false h.not_dots]
    rfl

/-- Within a component the loop accepts what is left of the path if that component, once it has ended, and all that
follow are allowed. -/
theorem componentsAllowed_iff (hplain : ∀ b ∈ component, PlainOctet b) :
    componentsAllowed (before ++ (component ++ rest)) (rest.length + 1) (before.length + component.length)
        before.length = true ↔
      ∀ c ∈ (component ++ rest).splitOn slash, AllowedComponent c := by
  have hnot : slash ∉ component := fun h => (hplain slash h).1 rfl
  induction rest generalizing before component with
  | nil =>
    have hend : (before ++ (component ++ []))[before.length + component.length]? = none := by
      simp
    rw [componentsAllowed, hend]
    simp only [componentEnds_iff hplain, List.length_nil, componentsAllowed, Bool.and_true]
    rw [List.append_nil, List.splitOn_eq_singleton hnot, List.forall_mem_singleton]
  | cons ch rest ih =>
    have hhere : (before ++ (component ++ ch :: rest))[before.length + component.length]? = some ch := by
      simp
    rw [componentsAllowed, hhere]
    by_cases hslash : ch = slash
    · subst hslash
      -- The component ends here, and the next one begins behind the slash.
      have hpath : before ++ (component ++ slash :: rest) = (before ++ (component ++ [slash])) ++ ([] ++ rest) := by
        simp
      have hindex : before.length + component.length + 1 = (before ++ (component ++ [slash])).length := by
        rw [List.length_append, List.length_append, List.length_singleton, Nat.add_assoc]
      have hnext : componentsAllowed (before ++ (component ++ slash :: rest)) (rest.length + 1)
          (before.length + component.length + 1) (before.length + component.length + 1) = true ↔
            ∀ c ∈ rest.splitOn slash, AllowedComponent c := by
        rw [hpath, hindex]
        exact ih (fun _ h => absurd h List.not_mem_nil) List.not_mem_nil
      have hmarks : slash ≠ backslash ∧ (decide (slash.val < 0x20) || decide (slash.val = 0x7f)) = false := by decide
      have hends : componentEnds (before ++ (component ++ slash :: rest)) (before.length + component.length)
          before.length = true ↔ AllowedComponent component := componentEnds_iff hplain
      rw [List.splitOn_append_cons_self_of_not_mem hnot, List.forall_mem_cons, ← hends, ← hnext]
      simp only [if_neg hmarks.1, hmarks.2, Bool.false_eq_true, if_false, ne_eq, not_true_eq_false, Bool.and_eq_true,
        List.length_cons]
    · have hpath : before ++ (component ++ ch :: rest) = before ++ ((component ++ [ch]) ++ rest) := by
        simp
      by_cases hch : PlainOctet ch
      · -- The component goes on.
        have hlonger : ∀ b ∈ component ++ [ch], PlainOctet b := by
          intro b hb
          rcases List.mem_append.mp hb with hb | hb
          · exact hplain b hb
          · rw [List.mem_singleton.mp hb]
            exact hch
        have hcontrol : (decide (ch.val < 0x20) || decide (ch.val = 0x7f)) = false := by
          rw [decide_eq_false (Nat.not_lt.mpr hch.2.2.1), decide_eq_false hch.2.2.2]
          rfl
        have hnext : componentsAllowed (before ++ ((component ++ [ch]) ++ rest)) _ _ _ = true ↔ _ :=
          ih hlonger fun h => (hlonger slash h).1 rfl
        rw [List.length_append, List.length_singleton, ← Nat.add_assoc, ← hpath] at hnext
        simp only [if_neg hch.2.1, hcontrol, Bool.false_eq_true, if_false, ne_eq, hslash, not_false_eq_true, if_true,
          List.length_cons]
        rw [hnext, List.append_assoc]
        rfl
      · -- An octet that is refused belongs to one of the components.
        refine iff_of_false (fun h => hch ?_)
          (fun h => hch (plain_of_components h (List.mem_append_right component List.mem_cons_self) hslash))
        simp only at h
        split at h
        · cases h
        · rename_i hback
          split at h
          · cases h
          · rename_i hcontrol
            simp only [Bool.or_eq_true, decide_eq_true_eq, not_or, not_lt] at hcontrol
            exact ⟨hslash, hback, hcontrol.1, hcontrol.2⟩

end Loop

theorem isAllowedZipPath_splitOn (path : Bytes) :
    isAllowedZipPath path = true ↔ ∀ c ∈ path.splitOn slash, AllowedComponent c := by
  have hloop : componentsAllowed ([] ++ ([] ++ path)) (path.length + 1)
      (List.length ([] : Bytes) + List.length ([] : Bytes)) (List.length ([] : Bytes)) = true ↔
        ∀ c ∈ ([] ++ path).splitOn slash, AllowedComponent c :=
    componentsAllowed_iff fun _ h => absurd h List.not_mem_nil
  constructor
  · intro h
    rw [isAllowedZipPath] at h
    split at h
    · cases h
    · split at h
      · cases h
      · split at h
        · cases h
        · exact hloop.mp h
  · intro h
    obtain ⟨hnil, hdot, hdots, hslash, hback, hslash', hback'⟩ := guards_of_components h
    have hempty : path.isEmpty = false := List.isEmpty_eq_false_iff.mpr hnil
    simp only [isAllowedZipPath, hempty, hdot, hdots, hslash, hback, hslash', hback', decide_false,
      Bool.or_self, Bool.false_eq_true, if_false]
    exact hloop.mpr h

/-- Exactly the relative paths whose components lead one step down each are allowed. -/
theorem isAllowedZipPath_iff (path : Bytes) :
    isAllowedZipPath path = true ↔ ∃ components : List Bytes, components ≠ [] ∧ path = [slash].intercalate components ∧
      ∀ c ∈ components, AllowedComponent c := by
  rw [isAllowedZipPath_splitOn]
  constructor
  · exact fun h => ⟨path.splitOn slash, List.splitOn_ne_nil slash path, (List.intercalate_splitOn slash).symm, h⟩
  · rintro ⟨components, hne, rfl, hall⟩
    have hsplit : ([slash].intercalate components).splitOn slash = components :=
      List.splitOn_intercalate slash (fun c hc hslash => ((hall c hc).plain slash hslash).1 rfl) hne
    rw [hsplit]
    exact hall

end Webshot.Arkhiv
