import CloudPing.Json.Token

/-!
# JSON values

A value is parsed by a machine that reads one token at a time and keeps a stack of the
arrays and objects that are open, with what is already in them.  The length of the stack is
bounded, so a text that nests too deep is refused.

What a value is written as is parsed to the value (`parse_text`), whatever its shape, if
its numbers are number literals and it does not nest too deep.
-/

namespace Json

/-- The members of an object are in the order of the text, and a key may come twice. -/
inductive Value where
  | null
  | bool (b : Bool)
  | num (lit : String)
  | str (s : String)
  | arr (vs : List Value)
  | obj (ms : List (String × Value))

/-- An integer. -/
def Value.int (n : Int) : Value := .num (String.ofList (Wire.decimal n))

/-! ## Writing -/

mutual

def Value.tokens : Value → List Token
  | .null => [.null]
  | .bool b => [.bool b]
  | .num lit => [.num lit]
  | .str s => [.str s]
  | .arr vs => .lbracket :: elemTokens vs
  | .obj ms => .lbrace :: memberTokens ms

/-- The elements of an array and its end. -/
def elemTokens : List Value → List Token
  | [] => [.rbracket]
  | v :: vs => v.tokens ++ moreElemTokens vs

/-- The elements behind another one. -/
def moreElemTokens : List Value → List Token
  | [] => [.rbracket]
  | v :: vs => .comma :: (v.tokens ++ moreElemTokens vs)

/-- The members of an object and its end. -/
def memberTokens : List (String × Value) → List Token
  | [] => [.rbrace]
  | (k, v) :: ms => .str k :: .colon :: (v.tokens ++ moreMemberTokens ms)

/-- The members behind another one. -/
def moreMemberTokens : List (String × Value) → List Token
  | [] => [.rbrace]
  | (k, v) :: ms => .comma :: .str k :: .colon :: (v.tokens ++ moreMemberTokens ms)

end

/-- The text of a value, without white space. -/
def Value.text (v : Value) : List Char := v.tokens.flatMap Token.text

mutual

/-- How deep a value nests. -/
def Value.depth : Value → Nat
  | .null | .bool _ | .num _ | .str _ => 0
  | .arr vs => elemsDepth vs + 1
  | .obj ms => membersDepth ms + 1

def elemsDepth : List Value → Nat
  | [] => 0
  | v :: vs => max v.depth (elemsDepth vs)

def membersDepth : List (String × Value) → Nat
  | [] => 0
  | (_, v) :: ms => max v.depth (membersDepth ms)

end

/-- The numbers of the value are number literals. -/
def Value.Valid (v : Value) : Prop := ∀ tok ∈ v.tokens, tok.Valid

/-! ## The machine -/

/-- An open array or object around the value at hand, with what is before it, the last
first. -/
inductive Frame where
  | elems (done : List Value)
  | members (done : List (String × Value)) (key : String)

/-- What may come next. -/
inductive State where
  | value (stk : List Frame)
  /-- A value or the end of an array. -/
  | firstElem (stk : List Frame)
  /-- A key or the end of an object. -/
  | firstKey (stk : List Frame)
  | key (stk : List Frame) (done : List (String × Value))
  | colon (stk : List Frame) (done : List (String × Value)) (key : String)
  /-- Whatever comes behind a value. -/
  | behind (stk : List Frame) (v : Value)

/-- The first token of a value. -/
def openValue (maxDepth : Nat) (stk : List Frame) : Token → Option State
  | .null => some (.behind stk .null)
  | .bool b => some (.behind stk (.bool b))
  | .num lit => some (.behind stk (.num lit))
  | .str s => some (.behind stk (.str s))
  | .lbracket => if stk.length < maxDepth then some (.firstElem stk) else none
  | .lbrace => if stk.length < maxDepth then some (.firstKey stk) else none
  | _ => none

def State.step (maxDepth : Nat) : State → Token → Option State
  | .value stk, tok => openValue maxDepth stk tok
  | .firstElem stk, .rbracket => some (.behind stk (.arr []))
  | .firstElem stk, tok => openValue maxDepth (.elems [] :: stk) tok
  | .firstKey stk, .rbrace => some (.behind stk (.obj []))
  | .firstKey stk, .str k => some (.colon stk [] k)
  | .key stk done, .str k => some (.colon stk done k)
  | .colon stk done k, .colon => some (.value (.members done k :: stk))
  | .behind (.elems done :: stk) v, .comma => some (.value (.elems (v :: done) :: stk))
  | .behind (.elems done :: stk) v, .rbracket => some (.behind stk (.arr (v :: done).reverse))
  | .behind (.members done k :: stk) v, .comma => some (.key stk ((k, v) :: done))
  | .behind (.members done k :: stk) v, .rbrace =>
    some (.behind stk (.obj ((k, v) :: done).reverse))
  | _, _ => none

def State.run (maxDepth : Nat) : State → List Token → Option State
  | s, [] => some s
  | s, tok :: toks => (s.step maxDepth tok).bind fun s' => s'.run maxDepth toks

/-- The value of a machine that is done. -/
def State.result : State → Option Value
  | .behind [] v => some v
  | _ => none

/-- The value of a text. -/
def parse (maxDepth : Nat) (cs : List Char) : Option Value :=
  (lex cs).bind fun toks => ((State.value []).run maxDepth toks).bind State.result

/-! ## Parsing what was written -/

variable {maxDepth : Nat}

theorem State.run_of_step {s s' : State} {tok : Token} (h : s.step maxDepth tok = some s')
    (toks : List Token) : s.run maxDepth (tok :: toks) = s'.run maxDepth toks := by
  rw [State.run, h, Option.bind_some]

/-- The first element of an array is read like any other value. -/
theorem run_firstElem (stk : List Frame) (v : Value) (rest : List Token) :
    (State.firstElem stk).run maxDepth (v.tokens ++ rest) =
      (State.value (.elems [] :: stk)).run maxDepth (v.tokens ++ rest) := by
  cases v <;> rfl

mutual

/-- The tokens of a value take the machine behind the value. -/
theorem run_tokens : ∀ (v : Value) (stk : List Frame) (rest : List Token),
    stk.length + v.depth ≤ maxDepth →
      (State.value stk).run maxDepth (v.tokens ++ rest) = (State.behind stk v).run maxDepth rest
  | .null, _, _, _ => rfl
  | .bool _, _, _, _ => rfl
  | .num _, _, _, _ => rfl
  | .str _, _, _, _ => rfl
  | .arr vs, stk, rest, hd => by
    rw [Value.depth] at hd
    have h₀ : (State.value stk).step maxDepth .lbracket = some (.firstElem stk) := by
      rw [State.step, openValue, if_pos (by omega)]
    rw [Value.tokens, List.cons_append, State.run_of_step h₀]
    exact run_elems vs stk rest (by omega)
  | .obj ms, stk, rest, hd => by
    rw [Value.depth] at hd
    have h₀ : (State.value stk).step maxDepth .lbrace = some (.firstKey stk) := by
      rw [State.step, openValue, if_pos (by omega)]
    rw [Value.tokens, List.cons_append, State.run_of_step h₀]
    exact run_members ms stk rest (by omega)

theorem run_elems : ∀ (vs : List Value) (stk : List Frame) (rest : List Token),
    stk.length + 1 + elemsDepth vs ≤ maxDepth →
      (State.firstElem stk).run maxDepth (elemTokens vs ++ rest) =
        (State.behind stk (.arr vs)).run maxDepth rest
  | [], _, _, _ => by
    rw [elemTokens]
    rfl
  | v :: vs, stk, rest, hd => by
    rw [elemsDepth] at hd
    rw [elemTokens, List.append_assoc, run_firstElem,
      run_tokens v (.elems [] :: stk) _ (by rw [List.length_cons]; omega)]
    exact run_moreElems vs [] v stk rest (by omega)

theorem run_moreElems : ∀ (vs done : List Value) (v : Value) (stk : List Frame)
    (rest : List Token), stk.length + 1 + elemsDepth vs ≤ maxDepth →
      (State.behind (.elems done :: stk) v).run maxDepth (moreElemTokens vs ++ rest) =
        (State.behind stk (.arr (done.reverse ++ v :: vs))).run maxDepth rest
  | [], done, v, stk, rest, _ => by
    rw [moreElemTokens, ← List.reverse_cons]
    rfl
  | v' :: vs, done, v, stk, rest, hd => by
    rw [elemsDepth] at hd
    have h₀ : (State.behind (.elems done :: stk) v).step maxDepth .comma =
      some (.value (.elems (v :: done) :: stk)) := rfl
    rw [moreElemTokens, List.cons_append, List.append_assoc, State.run_of_step h₀,
      run_tokens v' _ _ (by rw [List.length_cons]; omega),
      run_moreElems vs (v :: done) v' stk rest (by omega), List.reverse_cons, List.append_assoc,
      List.singleton_append]

theorem run_members : ∀ (ms : List (String × Value)) (stk : List Frame) (rest : List Token),
    stk.length + 1 + membersDepth ms ≤ maxDepth →
      (State.firstKey stk).run maxDepth (memberTokens ms ++ rest) =
        (State.behind stk (.obj ms)).run maxDepth rest
  | [], _, _, _ => by
    rw [memberTokens]
    rfl
  | (k, v) :: ms, stk, rest, hd => by
    rw [membersDepth] at hd
    have h₀ : (State.firstKey stk).step maxDepth (.str k) = some (.colon stk [] k) := rfl
    have h₁ : (State.colon stk [] k).step maxDepth .colon =
      some (.value (.members [] k :: stk)) := rfl
    rw [memberTokens, List.cons_append, List.cons_append, List.append_assoc,
      State.run_of_step h₀, State.run_of_step h₁,
      run_tokens v _ _ (by rw [List.length_cons]; omega)]
    exact run_moreMembers ms [] k v stk rest (by omega)

theorem run_moreMembers : ∀ (ms done : List (String × Value)) (k : String) (v : Value)
    (stk : List Frame) (rest : List Token), stk.length + 1 + membersDepth ms ≤ maxDepth →
      (State.behind (.members done k :: stk) v).run maxDepth (moreMemberTokens ms ++ rest) =
        (State.behind stk (.obj (done.reverse ++ (k, v) :: ms))).run maxDepth rest
  | [], done, k, v, stk, rest, _ => by
    rw [moreMemberTokens, ← List.reverse_cons]
    rfl
  | (k', v') :: ms, done, k, v, stk, rest, hd => by
    rw [membersDepth] at hd
    have h₀ : (State.behind (.members done k :: stk) v).step maxDepth .comma =
      some (.key stk ((k, v) :: done)) := rfl
    have h₁ : (State.key stk ((k, v) :: done)).step maxDepth (.str k') =
      some (.colon stk ((k, v) :: done) k') := rfl
    have h₂ : (State.colon stk ((k, v) :: done) k').step maxDepth .colon =
      some (.value (.members ((k, v) :: done) k' :: stk)) := rfl
    rw [moreMemberTokens, List.cons_append, List.cons_append, List.cons_append,
      List.append_assoc, State.run_of_step h₀, State.run_of_step h₁, State.run_of_step h₂,
      run_tokens v' _ _ (by rw [List.length_cons]; omega),
      run_moreMembers ms ((k, v) :: done) k' v' stk rest (by omega), List.reverse_cons,
      List.append_assoc, List.singleton_append]

end

/-! ## The text of a value -/

theorem separated_cons {tok : Token} {toks : List Token}
    (h : tok.isWord = true → ∀ t ∈ toks.head?, t.isWord = false) (hs : Separated toks) :
    Separated (tok :: toks) :=
  List.isChain_cons.2 ⟨fun t ht hw => h hw t ht, hs⟩

theorem separated_cons_of_not_isWord {tok : Token} {toks : List Token} (h : tok.isWord = false)
    (hs : Separated toks) : Separated (tok :: toks) :=
  separated_cons (fun hw => absurd (h.symm.trans hw) Bool.false_ne_true) hs

/-- What follows an element in an array is no word. -/
theorem head_moreElemTokens (vs : List Value) (rest : List Token) :
    ∀ t ∈ (moreElemTokens vs ++ rest).head?, t.isWord = false := by
  intro t ht
  cases vs <;>
  · rw [moreElemTokens] at ht
    obtain rfl := Option.some.inj ht
    rfl

theorem head_moreMemberTokens (ms : List (String × Value)) (rest : List Token) :
    ∀ t ∈ (moreMemberTokens ms ++ rest).head?, t.isWord = false := by
  intro t ht
  cases ms <;>
  · rw [moreMemberTokens] at ht
    obtain rfl := Option.some.inj ht
    rfl

mutual

/-- The tokens of a value are separated, and from what follows if that is no word. -/
theorem separated_tokens : ∀ (v : Value) (rest : List Token), Separated rest →
    (∀ t ∈ rest.head?, t.isWord = false) → Separated (v.tokens ++ rest)
  | .null, _, hs, hr => separated_cons (fun _ => hr) hs
  | .bool _, _, hs, hr => separated_cons (fun _ => hr) hs
  | .num _, _, hs, hr => separated_cons (fun _ => hr) hs
  | .str _, _, hs, hr => separated_cons (fun _ => hr) hs
  | .arr vs, rest, hs, _ => by
    rw [Value.tokens]
    exact separated_cons_of_not_isWord rfl (separated_elemTokens vs rest hs)
  | .obj ms, rest, hs, _ => by
    rw [Value.tokens]
    exact separated_cons_of_not_isWord rfl (separated_memberTokens ms rest hs)

theorem separated_elemTokens : ∀ (vs : List Value) (rest : List Token), Separated rest →
    Separated (elemTokens vs ++ rest)
  | [], rest, hs => by
    rw [elemTokens]
    exact separated_cons_of_not_isWord rfl hs
  | v :: vs, rest, hs => by
    rw [elemTokens, List.append_assoc]
    exact separated_tokens v _ (separated_moreElemTokens vs rest hs) (head_moreElemTokens vs rest)

theorem separated_moreElemTokens : ∀ (vs : List Value) (rest : List Token), Separated rest →
    Separated (moreElemTokens vs ++ rest)
  | [], rest, hs => by
    rw [moreElemTokens]
    exact separated_cons_of_not_isWord rfl hs
  | v :: vs, rest, hs => by
    rw [moreElemTokens, List.cons_append, List.append_assoc]
    exact separated_cons_of_not_isWord rfl
      (separated_tokens v _ (separated_moreElemTokens vs rest hs) (head_moreElemTokens vs rest))

theorem separated_memberTokens : ∀ (ms : List (String × Value)) (rest : List Token),
    Separated rest → Separated (memberTokens ms ++ rest)
  | [], rest, hs => by
    rw [memberTokens]
    exact separated_cons_of_not_isWord rfl hs
  | (k, v) :: ms, rest, hs => by
    rw [memberTokens, List.cons_append, List.cons_append, List.append_assoc]
    exact separated_cons_of_not_isWord rfl (separated_cons_of_not_isWord rfl
      (separated_tokens v _ (separated_moreMemberTokens ms rest hs)
        (head_moreMemberTokens ms rest)))

theorem separated_moreMemberTokens : ∀ (ms : List (String × Value)) (rest : List Token),
    Separated rest → Separated (moreMemberTokens ms ++ rest)
  | [], rest, hs => by
    rw [moreMemberTokens]
    exact separated_cons_of_not_isWord rfl hs
  | (k, v) :: ms, rest, hs => by
    rw [moreMemberTokens, List.cons_append, List.cons_append, List.cons_append,
      List.append_assoc]
    exact separated_cons_of_not_isWord rfl (separated_cons_of_not_isWord rfl
      (separated_cons_of_not_isWord rfl
        (separated_tokens v _ (separated_moreMemberTokens ms rest hs)
          (head_moreMemberTokens ms rest))))

end

/-- The numbers of a value are literals, and it does not nest too deep. -/
structure Value.Fits (maxDepth : Nat) (v : Value) : Prop where
  valid : v.Valid
  depth : v.depth ≤ maxDepth

/-- A value is read from its text. -/
theorem parse_text {v : Value} (hv : v.Fits maxDepth) : parse maxDepth v.text = some v := by
  have hs : Separated v.tokens := by
    have := separated_tokens v [] List.IsChain.nil (by simp)
    rwa [List.append_nil] at this
  have hrun := run_tokens v [] [] (by simpa using hv.depth)
  rw [List.append_nil] at hrun
  rw [parse, Value.text, lex_texts hv.valid hs, Option.bind_some, hrun]
  rfl

/-! ## Values that fit -/

theorem Value.Fits.mono {v : Value} {d : Nat} (h : v.Fits d) (hd : d ≤ maxDepth) :
    v.Fits maxDepth := ⟨h.valid, h.depth.trans hd⟩

/-- A value of one token fits if the token is valid. -/
theorem fits_of_tokens {v : Value} {tok : Token} (ht : v.tokens = [tok]) (hv : tok.Valid)
    (hd : v.depth = 0) : v.Fits maxDepth := by
  refine ⟨fun t h => ?_, by rw [hd]; exact Nat.zero_le _⟩
  rw [ht, List.mem_singleton] at h
  rwa [h]

@[simp] theorem fits_str (s : String) : (Value.str s).Fits maxDepth :=
  fits_of_tokens rfl trivial rfl

@[simp] theorem fits_null : Value.null.Fits maxDepth := fits_of_tokens rfl trivial rfl

@[simp] theorem fits_int (n : Int) : (Value.int n).Fits maxDepth := by
  refine fits_of_tokens rfl ?_ rfl
  show isNumber (String.ofList (Wire.decimal n)).toList = true
  rw [String.toList_ofList]
  exact isNumber_decimal n

theorem valid_arr {vs : List Value} (h : ∀ v ∈ vs, v.Valid) : (Value.arr vs).Valid := by
  have hmore : ∀ vs : List Value, (∀ v ∈ vs, v.Valid) →
      ∀ tok ∈ moreElemTokens vs, tok.Valid := by
    intro vs
    induction vs with
    | nil => simp [moreElemTokens, Token.Valid]
    | cons v vs ih =>
      intro h tok ht
      rw [moreElemTokens, List.mem_cons, List.mem_append] at ht
      rcases ht with rfl | ht | ht
      · trivial
      · exact h v List.mem_cons_self tok ht
      · exact ih (fun v' hv' => h v' (List.mem_cons_of_mem _ hv')) tok ht
  intro tok ht
  rw [Value.tokens, List.mem_cons] at ht
  rcases ht with rfl | ht
  · trivial
  · cases vs with
    | nil =>
      rw [elemTokens, List.mem_singleton] at ht
      subst ht
      trivial
    | cons v vs =>
      rw [elemTokens, List.mem_append] at ht
      exact ht.elim (h v List.mem_cons_self tok)
        (hmore vs (fun v' hv' => h v' (List.mem_cons_of_mem _ hv')) tok)

theorem valid_obj {ms : List (String × Value)} (h : ∀ m ∈ ms, m.2.Valid) :
    (Value.obj ms).Valid := by
  have hmore : ∀ ms : List (String × Value), (∀ m ∈ ms, m.2.Valid) →
      ∀ tok ∈ moreMemberTokens ms, tok.Valid := by
    intro ms
    induction ms with
    | nil => simp [moreMemberTokens, Token.Valid]
    | cons m ms ih =>
      intro h tok ht
      rw [moreMemberTokens, List.mem_cons, List.mem_cons, List.mem_cons, List.mem_append] at ht
      rcases ht with rfl | rfl | rfl | ht | ht
      · trivial
      · trivial
      · trivial
      · exact h m List.mem_cons_self tok ht
      · exact ih (fun m' hm' => h m' (List.mem_cons_of_mem _ hm')) tok ht
  intro tok ht
  rw [Value.tokens, List.mem_cons] at ht
  rcases ht with rfl | ht
  · trivial
  · cases ms with
    | nil =>
      rw [memberTokens, List.mem_singleton] at ht
      subst ht
      trivial
    | cons m ms =>
      rw [memberTokens, List.mem_cons, List.mem_cons, List.mem_append] at ht
      rcases ht with rfl | rfl | ht | ht
      · trivial
      · trivial
      · exact h m List.mem_cons_self tok ht
      · exact hmore ms (fun m' hm' => h m' (List.mem_cons_of_mem _ hm')) tok ht

theorem depth_arr_le {vs : List Value} {d : Nat} (h : ∀ v ∈ vs, v.depth ≤ d) :
    (Value.arr vs).depth ≤ d + 1 := by
  rw [Value.depth, Nat.add_le_add_iff_right]
  induction vs with
  | nil => exact Nat.zero_le d
  | cons v vs ih =>
    rw [elemsDepth, Nat.max_le]
    exact ⟨h v List.mem_cons_self, ih fun v' hv' => h v' (List.mem_cons_of_mem _ hv')⟩

theorem depth_obj_le {ms : List (String × Value)} {d : Nat} (h : ∀ m ∈ ms, m.2.depth ≤ d) :
    (Value.obj ms).depth ≤ d + 1 := by
  rw [Value.depth, Nat.add_le_add_iff_right]
  induction ms with
  | nil => exact Nat.zero_le d
  | cons m ms ih =>
    rw [membersDepth, Nat.max_le]
    exact ⟨h m List.mem_cons_self, ih fun m' hm' => h m' (List.mem_cons_of_mem _ hm')⟩

theorem fits_arr {vs : List Value} (h : ∀ v ∈ vs, v.Fits maxDepth) :
    (Value.arr vs).Fits (maxDepth + 1) :=
  ⟨valid_arr fun v hv => (h v hv).valid, depth_arr_le fun v hv => (h v hv).depth⟩

theorem fits_obj {ms : List (String × Value)} (h : ∀ m ∈ ms, m.2.Fits maxDepth) :
    (Value.obj ms).Fits (maxDepth + 1) :=
  ⟨valid_obj fun m hm => (h m hm).valid, depth_obj_le fun m hm => (h m hm).depth⟩

end Json
