import CloudPing.Json.Struct

/-!
# Values in untyped variables

A variable of type `any` holds a number as a float64 and an object as a map.  So what is written of
it has other texts for its numbers, and an object has its members in the order of their keys, of two
members with one key the later one (`Value.untyped`).

It is as valid as the value was and nests no deeper (`fits_untyped`).
-/

namespace Json

/-- Number literals by the float64 nearest to them. -/
structure FloatText where
  /-- The literal that is written of the float. -/
  text : String → String
  valid {lit : String} : isNumber lit.toList = true → isNumber (text lit).toList = true
  /-- These integers are floats. -/
  int {n : Int} : n.natAbs ≤ 2 ^ 53 →
    text (String.ofList (Wire.decimal n)) = String.ofList (Wire.decimal n)

mutual

/-- What is written of a value that was read into an untyped variable. -/
def Value.untyped (float : FloatText) : Value → Value
  | .null => .null
  | .bool b => .bool b
  | .num lit => .num (float.text lit)
  | .str s => .str s
  | .arr vs => .arr (untypedElems float vs)
  | .obj ms => .obj (untypedMembers float [] ms)

def untypedElems (float : FloatText) : List Value → List Value
  | [] => []
  | v :: vs => v.untyped float :: untypedElems float vs

/-- A map to which the members are added one by one. -/
def untypedMembers (float : FloatText) :
    List (String × Value) → List (String × Value) → List (String × Value)
  | done, [] => done
  | done, (k, v) :: ms => untypedMembers float (Wire.insertKey k (v.untyped float) done) ms

end

/-- Whether there is nothing. -/
def Value.isNull : Value → Bool
  | .null => true
  | _ => false

theorem isNull_untyped (float : FloatText) (v : Value) : (v.untyped float).isNull = v.isNull := by
  cases v <;> rfl

theorem ne_null_of_isNull {v : Value} (h : v.isNull = false) : v ≠ .null := by
  rintro rfl
  cases h

section Deciding

instance (tok : Token) : Decidable tok.Valid :=
  match tok with
  | .num lit => inferInstanceAs (Decidable (isNumber lit.toList = true))
  | .null | .bool _ | .str _ | .lbracket | .rbracket | .lbrace | .rbrace | .comma | .colon =>
    isTrue trivial

instance (v : Value) : Decidable v.Valid :=
  inferInstanceAs (Decidable (∀ tok ∈ v.tokens, tok.Valid))

instance (maxDepth : Nat) (v : Value) : Decidable (v.Fits maxDepth) :=
  decidable_of_iff (v.Valid ∧ v.depth ≤ maxDepth)
    ⟨fun h => ⟨h.1, h.2⟩, fun h => ⟨h.valid, h.depth⟩⟩

end Deciding

/-! ## What is inside a valid value -/

section Inside

variable {v : Value}

theorem tokens_subset_moreElemTokens {vs : List Value} (h : v ∈ vs) :
    v.tokens ⊆ moreElemTokens vs := by
  induction vs with
  | nil => cases h
  | cons w vs ih =>
    intro tok htok
    rw [moreElemTokens, List.mem_cons, List.mem_append]
    rcases List.mem_cons.1 h with rfl | h
    · exact Or.inr (Or.inl htok)
    · exact Or.inr (Or.inr (ih h htok))

theorem Value.Valid.elem {vs : List Value} (h : (Value.arr vs).Valid) (hv : v ∈ vs) : v.Valid := by
  intro tok htok
  refine h tok ?_
  rw [Value.tokens, List.mem_cons]
  cases vs with
  | nil => cases hv
  | cons w vs =>
    rw [elemTokens, List.mem_append]
    rcases List.mem_cons.1 hv with rfl | hv
    · exact Or.inr (Or.inl htok)
    · exact Or.inr (Or.inr (tokens_subset_moreElemTokens hv htok))

theorem tokens_subset_moreMemberTokens {k : String} {ms : List (String × Value)}
    (h : (k, v) ∈ ms) : v.tokens ⊆ moreMemberTokens ms := by
  induction ms with
  | nil => cases h
  | cons m ms ih =>
    intro tok htok
    rw [moreMemberTokens, List.mem_cons, List.mem_cons, List.mem_cons, List.mem_append]
    rcases List.mem_cons.1 h with rfl | h
    · exact Or.inr (Or.inr (Or.inr (Or.inl htok)))
    · exact Or.inr (Or.inr (Or.inr (Or.inr (ih h htok))))

theorem Value.Valid.member {k : String} {ms : List (String × Value)} (h : (Value.obj ms).Valid)
    (hv : (k, v) ∈ ms) : v.Valid := by
  intro tok htok
  refine h tok ?_
  rw [Value.tokens, List.mem_cons]
  cases ms with
  | nil => cases hv
  | cons m ms =>
    rw [memberTokens, List.mem_cons, List.mem_cons, List.mem_append]
    rcases List.mem_cons.1 hv with rfl | hv
    · exact Or.inr (Or.inr (Or.inr (Or.inl htok)))
    · exact Or.inr (Or.inr (Or.inr (Or.inr (tokens_subset_moreMemberTokens hv htok))))

end Inside

/-! ## The written value fits -/

theorem membersDepth_insertKey_le (k : String) (v : Value) (done : List (String × Value)) :
    membersDepth (Wire.insertKey k v done) ≤ max v.depth (membersDepth done) := by
  induction done with
  | nil => exact Nat.le_refl _
  | cons m done ih =>
    rw [Wire.insertKey]
    split_ifs
    · exact Nat.le_refl _
    · rw [membersDepth, membersDepth]
      omega
    · rw [membersDepth, membersDepth]
      omega

mutual

theorem depth_untyped_le (float : FloatText) : ∀ v : Value, (v.untyped float).depth ≤ v.depth
  | .null | .bool _ | .num _ | .str _ => Nat.le_refl _
  | .arr vs => Nat.add_le_add_right (elemsDepth_untyped_le float vs) 1
  | .obj ms => by
    have h := membersDepth_untyped_le float [] ms
    rw [membersDepth, Nat.zero_max] at h
    exact Nat.add_le_add_right h 1

theorem elemsDepth_untyped_le (float : FloatText) :
    ∀ vs : List Value, elemsDepth (untypedElems float vs) ≤ elemsDepth vs
  | [] => Nat.le_refl _
  | v :: vs => by
    have hv := depth_untyped_le float v
    have hvs := elemsDepth_untyped_le float vs
    rw [untypedElems, elemsDepth, elemsDepth]
    omega

theorem membersDepth_untyped_le (float : FloatText) :
    ∀ done ms : List (String × Value),
      membersDepth (untypedMembers float done ms) ≤ max (membersDepth done) (membersDepth ms)
  | done, [] => Nat.le_max_left _ _
  | done, (k, v) :: ms => by
    have hv := depth_untyped_le float v
    have hdone := membersDepth_insertKey_le k (v.untyped float) done
    have hms := membersDepth_untyped_le float (Wire.insertKey k (v.untyped float) done) ms
    rw [untypedMembers, membersDepth]
    omega

end

mutual

theorem valid_untyped (float : FloatText) : ∀ v : Value, v.Valid → (v.untyped float).Valid
  | .null, h | .bool _, h | .str _, h => h
  | .num lit, h => by
    intro tok htok
    obtain rfl := List.mem_singleton.1 htok
    exact float.valid (h (.num lit) List.mem_cons_self)
  | .arr vs, h => valid_arr (valid_untypedElems float vs fun _ hv => h.elem hv)
  | .obj ms, h =>
    valid_obj (valid_untypedMembers float [] ms (fun m hm => by cases hm) fun _ hm => h.member hm)

theorem valid_untypedElems (float : FloatText) :
    ∀ vs : List Value, (∀ v ∈ vs, v.Valid) → ∀ v ∈ untypedElems float vs, v.Valid
  | [], _ => fun _ hv => by cases hv
  | v :: vs, h => by
    intro w hw
    rcases List.mem_cons.1 hw with rfl | hw
    · exact valid_untyped float v (h v List.mem_cons_self)
    · exact valid_untypedElems float vs (fun v' hv' => h v' (List.mem_cons_of_mem _ hv')) w hw

theorem valid_untypedMembers (float : FloatText) :
    ∀ done ms : List (String × Value), (∀ m ∈ done, m.2.Valid) → (∀ m ∈ ms, m.2.Valid) →
      ∀ m ∈ untypedMembers float done ms, m.2.Valid
  | _, [], hdone, _ => hdone
  | done, (k, v) :: ms, hdone, h => by
    have hv := valid_untyped float v (h (k, v) List.mem_cons_self)
    refine valid_untypedMembers float _ ms (fun m hm => ?_) fun m hm =>
      h m (List.mem_cons_of_mem _ hm)
    rcases Wire.mem_insertKey hm with rfl | hm
    · exact hv
    · exact hdone m hm

end

theorem fits_untyped (float : FloatText) {v : Value} {maxDepth : Nat} (h : v.Fits maxDepth) :
    (v.untyped float).Fits maxDepth :=
  ⟨valid_untyped float v h.valid, (depth_untyped_le float v).trans h.depth⟩

end Json
