/-
  Access paths, and how their texts are read. A path starts with a word, a constant, a static member
  or something in brackets, and goes on with members, calls and indices; the address of the whole
  can be taken. Behind a path can only come what does not continue it, so its text tells where it
  ends and what it is (`Path.split`). Hence two expressions that are paths have the same text
  exactly if they are equal up to static types and sources (`Expr.text_eq_iff_bare_eq`).

  A path never goes on behind an address. In the text nothing would tell that from the address of
  what goes on.
-/
import MiddleEnd.Proofs.Code.Bare
import MiddleEnd.Proofs.Code.Words

namespace MiddleEnd

/-! ## Paths -/

/-- Code with a word as its text. -/
structure Word where
  form : ExprForm
  isWord : form.isWord = true

/-- A type with a word as its text. -/
structure TypeWord where
  type : TypeRef
  isWord : type.isWord = true

/-- A constant that is written between quotes. -/
inductive Quoted where
  | char (value : Char)
  | string (value : String)

/-- What stands behind the dot of a qualified name. -/
structure Name where
  text : String
  unbroken : Unbroken text.toList

mutual

/-- The address of the path is taken so many times. -/
inductive Path where
  | mk (addresses : Nat) (head : Head) (steps : List Step)

/-- Where a path starts. -/
inductive Head where
  | word (word : Word)
  | quoted (constant : Quoted)
  | static (ref : MemberRef)
  | qualified (object : Path) (name : Name)
  | binary (op : BinaryOp) (left right : Path)
  | cast (type : TypeWord) (operand : Path)

/-- What a path goes on with. -/
inductive Step where
  | member (ref : MemberRef)
  | call (arguments : List Path)
  | index (operands : List Path)

end

def Word.chars (w : Word) : List Char := (w.form.text none).toList

def Quoted.chars : Quoted → List Char
  | .char value => '\'' :: (Text.literalChar value ++ ['\''])
  | .string value => '"' :: (value.toList.flatMap Text.literalChar ++ ['"'])

def Quoted.literal : Quoted → Literal
  | .char value => .char value
  | .string value => .string value

def TypeWord.chars (t : TypeWord) : List Char := t.type.text.toList

mutual

def Path.chars : Path → List Char
  | .mk addresses head steps =>
    List.replicate addresses '&' ++ (head.chars ++ stepsChars steps)

def Head.chars : Head → List Char
  | .word word => word.chars
  | .quoted constant => constant.chars
  | .static ref => '<' :: (ref.text.toList ++ ['>'])
  | .qualified object name => '(' :: (object.chars ++ ')' :: '.' :: name.text.toList)
  | .binary op left right =>
    '(' :: (left.chars ++ ' ' :: (op.text.toList ++ ' ' :: (right.chars ++ [')'])))
  | .cast type operand => '(' :: '(' :: (type.chars ++ ')' :: ' ' :: (operand.chars ++ [')']))

def Step.chars : Step → List Char
  | .member ref => '.' :: '<' :: (ref.text.toList ++ ['>'])
  | .call arguments => '(' :: (pathsChars arguments ++ [')'])
  | .index operands => '[' :: (pathsChars operands ++ [']'])

def stepsChars : List Step → List Char
  | [] => []
  | step :: steps => step.chars ++ stepsChars steps

def pathsChars : List Path → List Char
  | [] => []
  | path :: paths => path.chars ++ othersChars paths

/-- Paths with a comma before each of them. -/
def othersChars : List Path → List Char
  | [] => []
  | path :: paths => ',' :: ' ' :: (path.chars ++ othersChars paths)

end

/-! ## Reading -/

/-- A character that can stand behind a path. -/
def isStop (c : Char) : Bool := [',', ')', ']', ' '].contains c

section

variable {r s : List Char}

theorem isBreak_of_isStop (c : Char) (h : isStop c = true) : isBreak c = true := by
  simp only [isStop, List.contains_eq_mem, List.mem_cons, List.not_mem_nil, or_false,
    decide_eq_true_eq] at h
  rcases h with rfl | rfl | rfl | rfl <;> rfl

theorem goesOn_steps (steps : List Step) (hr : GoesOn isStop r) :
    GoesOn isBreak (stepsChars steps ++ r) := by
  cases steps with
  | nil => exact hr.mono isBreak_of_isStop
  | cons step steps => cases step <;> simp [stepsChars, Step.chars, isBreak]

/-- The bracket behind a list of paths. -/
def isClosing (c : Char) : Bool := c == ')' || c == ']'

theorem isStop_of_isClosing {c : Char} (h : isClosing c = true) : isStop c = true := by
  rcases (Bool.or_eq_true _ _).mp h with h | h
  all_goals
    rw [LawfulBEq.eq_of_beq h]
    rfl

theorem goesOn_others {c : Char} (paths : List Path) (hc : isClosing c = true) :
    GoesOn isStop (othersChars paths ++ c :: r) := by
  cases paths with
  | nil => exact goesOn_cons.mpr (isStop_of_isClosing hc)
  | cons path paths => simp [othersChars, isStop]

theorem goesOn_word (h : GoesOn isBreak r) : GoesOn (fun c => !!isBreak c) r :=
  h.mono fun c hc => by rw [hc]; rfl

theorem WordText.split {t t' : String} (ht : WordText t) (ht' : WordText t')
    (hr : GoesOn isBreak r) (hs : GoesOn isBreak s) (h : t.toList ++ r = t'.toList ++ s) :
    t = t' ∧ r = s := by
  obtain ⟨htt, hrs⟩ := split_unique h ht.unbroken ht'.unbroken (goesOn_word hr) (goesOn_word hs)
  exact ⟨String.toList_inj.mp htt, hrs⟩

theorem Word.wordText (w : Word) : WordText (w.form.text none) := ExprForm.wordText w.isWord

theorem Word.split {w w' : Word} (hr : GoesOn isBreak r) (hs : GoesOn isBreak s)
    (h : w.chars ++ r = w'.chars ++ s) : w = w' ∧ r = s := by
  obtain ⟨htext, rfl⟩ := w.wordText.split w'.wordText hr hs h
  obtain ⟨form, hform⟩ := w
  obtain ⟨form', hform'⟩ := w'
  obtain rfl : form = form' := by
    rw [← ofWord_text hform, htext, ofWord_text hform']
  exact ⟨rfl, rfl⟩

theorem Quoted.split {l l' : Quoted} (h : l.chars ++ r = l'.chars ++ s) : l = l' ∧ r = s := by
  cases l with
  | char c =>
      cases l' with
      | char c' =>
          simp only [Quoted.chars, List.cons_append, List.append_assoc, List.nil_append,
            List.cons.injEq, true_and] at h
          obtain ⟨rfl, hrest⟩ := Text.literalChar_split h
          exact ⟨rfl, (List.cons.inj hrest).2⟩
      | string t => simp [Quoted.chars] at h
  | string t =>
      cases l' with
      | char c => simp [Quoted.chars] at h
      | string t' =>
          simp only [Quoted.chars, List.cons_append, List.append_assoc, List.nil_append,
            List.cons.injEq, true_and] at h
          obtain ⟨htext, rfl⟩ := Text.literal_split rfl h
          rw [String.toList_inj.mp htext]
          exact ⟨rfl, rfl⟩

theorem TypeWord.wordText (t : TypeWord) : WordText t.type.text := TypeRef.wordText t.isWord

theorem TypeWord.split {t t' : TypeWord} (hr : GoesOn isBreak r) (hs : GoesOn isBreak s)
    (h : t.chars ++ r = t'.chars ++ s) : t = t' ∧ r = s := by
  obtain ⟨htext, rfl⟩ := t.wordText.split t'.wordText hr hs h
  obtain ⟨type, htype⟩ := t
  obtain ⟨type', htype'⟩ := t'
  obtain rfl := TypeRef.text_inj_of_isWord htype htype' htext
  exact ⟨rfl, rfl⟩

theorem Name.split {n n' : Name} (hr : GoesOn isBreak r) (hs : GoesOn isBreak s)
    (h : n.text.toList ++ r = n'.text.toList ++ s) : n = n' ∧ r = s := by
  obtain ⟨htext, rfl⟩ := split_unique h n.unbroken n'.unbroken (goesOn_word hr) (goesOn_word hs)
  obtain ⟨text, htext⟩ := n
  obtain ⟨text', htext'⟩ := n'
  obtain rfl : text = text' := String.toList_inj.mp ‹_›
  exact ⟨rfl, rfl⟩

/-! The texts of heads, with what comes behind them. -/

theorem Head.static_append (ref : MemberRef) :
    (Head.static ref).chars ++ r = '<' :: (ref.text.toList ++ '>' :: r) := by
  simp [Head.chars]

theorem Head.qualified_append (object : Path) (name : Name) :
    (Head.qualified object name).chars ++ r =
      '(' :: (object.chars ++ ')' :: '.' :: (name.text.toList ++ r)) := by
  simp [Head.chars]

theorem Head.binary_append (op : BinaryOp) (left right : Path) :
    (Head.binary op left right).chars ++ r =
      '(' :: (left.chars ++ ' ' :: (op.text.toList ++ ' ' :: (right.chars ++ ')' :: r))) := by
  simp [Head.chars]

theorem Head.cast_append (type : TypeWord) (operand : Path) :
    (Head.cast type operand).chars ++ r =
      '(' :: '(' :: (type.chars ++ ')' :: ' ' :: (operand.chars ++ ')' :: r)) := by
  simp [Head.chars]

/-- What a text starts like. -/
inductive Lead where
  | stop
  | address
  | bracketed
  | static
  | quoted
  | word

def Lead.ofChar (c : Char) : Lead :=
  if isStop c then .stop else if c = '&' then .address else if c = '(' then .bracketed
  else if c = '<' then .static else if Text.isQuote c then .quoted else .word

def Starts (lead : Lead) (cs : List Char) : Prop := ∃ c ∈ cs.head?, Lead.ofChar c = lead

theorem Starts.append {lead : Lead} {cs : List Char} (h : Starts lead cs) :
    Starts lead (cs ++ r) := by
  obtain ⟨c, hc, hlead⟩ := h
  refine ⟨c, ?_, hlead⟩
  rw [List.head?_append, Option.mem_def.mp hc]
  rfl

theorem Starts.unique {lead lead' : Lead} {cs : List Char} (h : Starts lead cs)
    (h' : Starts lead' cs) : lead = lead' := by
  obtain ⟨c, hc, rfl⟩ := h
  obtain ⟨d, hd, rfl⟩ := h'
  rw [Option.mem_unique hc hd]

theorem starts_cons (c : Char) (cs : List Char) : Starts (.ofChar c) (c :: cs) := ⟨c, rfl, rfl⟩

theorem WordText.starts {t : String} (ht : WordText t) : Starts .word t.toList := by
  obtain ⟨c, cs, hcs, hlead⟩ := ht.leads
  have hc := ht.unbroken c (by rw [hcs]; exact List.mem_cons_self ..)
  simp only [isOpening, Bool.or_eq_false_iff, beq_eq_false_iff_ne] at hlead
  obtain ⟨⟨hstatic, haddress⟩, hquote⟩ := hlead
  have hbracket : c ≠ '(' := by
    rintro rfl
    cases hc
  have hstop : ¬isStop c = true := by
    intro hstop
    rw [isBreak_of_isStop c hstop] at hc
    cases hc
  refine ⟨c, by rw [hcs]; rfl, ?_⟩
  rw [Lead.ofChar, if_neg hstop, if_neg haddress, if_neg hbracket, if_neg hstatic, hquote]
  rfl

def Head.lead : Head → Lead
  | .word _ => .word
  | .quoted _ => .quoted
  | .static _ => .static
  | .qualified _ _ | .binary _ _ _ | .cast _ _ => .bracketed

theorem Head.starts (head : Head) : Starts head.lead head.chars := by
  cases head with
  | word w => exact w.wordText.starts
  | quoted l => cases l <;> exact starts_cons _ _
  | static | qualified | binary | cast => exact starts_cons _ _

theorem Head.lead_eq {head head' : Head} (h : head.chars ++ r = head'.chars ++ s) :
    head.lead = head'.lead :=
  head.starts.append.unique (h ▸ head'.starts.append)

def Path.lead : Path → Lead
  | .mk 0 head _ => head.lead
  | .mk (_ + 1) _ _ => .address

theorem Path.starts (p : Path) : Starts p.lead p.chars := by
  obtain ⟨addresses, head, steps⟩ := p
  cases addresses with
  | zero => exact head.starts.append
  | succ n => exact starts_cons _ _

theorem Path.lead_ne_stop (p : Path) : p.lead ≠ .stop := by
  obtain ⟨addresses, head, steps⟩ := p
  cases addresses with
  | zero => cases head <;> exact Lead.noConfusion
  | succ n => exact Lead.noConfusion

/-- The addresses in front are told from what they are taken of. -/
theorem addresses_split {m n : Nat} {head head' : Head}
    (h : List.replicate m '&' ++ (head.chars ++ r) = List.replicate n '&' ++ (head'.chars ++ s)) :
    m = n ∧ head.chars ++ r = head'.chars ++ s := by
  have hfront : ∀ k, ∀ c ∈ List.replicate k '&', (c == '&') = true := by
    intro k c hc
    rw [List.eq_of_mem_replicate hc]
    rfl
  have hbehind : ∀ (head : Head) (r : List Char),
      GoesOn (fun c => !(c == '&')) (head.chars ++ r) := by
    intro head r c hc
    obtain ⟨d, hd, hlead⟩ := head.starts.append (r := r)
    obtain rfl := Option.mem_unique hc hd
    rw [Bool.not_eq_true', beq_eq_false_iff_ne]
    rintro rfl
    cases head <;> cases hlead
  obtain ⟨hmn, hrest⟩ := split_unique h (hfront m) (hfront n) (hbehind head r) (hbehind head' s)
  exact ⟨by simpa using congrArg List.length hmn, hrest⟩

theorem closing_ne_paths {c : Char} (path : Path) (paths : List Path) (hc : isClosing c = true) :
    c :: r ≠ pathsChars (path :: paths) ++ s := by
  intro h
  have hstop : Starts .stop (c :: r) :=
    ⟨c, rfl, by rw [Lead.ofChar, if_pos (isStop_of_isClosing hc)]⟩
  rw [h, pathsChars] at hstop
  exact path.lead_ne_stop (path.starts.append.append.unique hstop)

/-- A path behind an opening bracket, where a type with its closing bracket stands as well. -/
theorem TypeWord.closed (t : TypeWord) (p : Path) (hs : GoesOn isStop s)
    (h : t.chars ++ ')' :: r = p.chars ++ s) : ')' :: r = s := by
  have hlead : Lead.word = p.lead := t.wordText.starts.append.unique (h ▸ p.starts.append)
  obtain ⟨_ | n, head, steps⟩ := p
  · cases head with
    | word w =>
        rw [Path.chars, List.replicate_zero, List.nil_append, List.append_assoc] at h
        obtain ⟨-, hrest⟩ :=
          t.wordText.split w.wordText (goesOn_cons.mpr rfl) (goesOn_steps steps hs) h
        cases steps with
        | nil => exact hrest
        | cons step steps => cases step <;> simp [stepsChars, Step.chars] at hrest
    | _ => cases hlead
  · cases hlead

/-- In a cast a blank comes behind the bracket that closes the type. No path starts so. -/
theorem Path.ne_cast (p : Path) (t : TypeWord) :
    p.chars ++ r ≠ '(' :: (t.chars ++ ')' :: ' ' :: s) := by
  intro h
  have hlead : p.lead = .bracketed := p.starts.append.unique (h ▸ starts_cons '(' _)
  obtain ⟨_ | n, head, steps⟩ := p
  · rw [Path.chars, List.replicate_zero, List.nil_append, List.append_assoc] at h
    cases head with
    | qualified object name =>
        rw [Head.qualified_append] at h
        have hrest := t.closed object (goesOn_cons.mpr rfl) (List.cons.inj h).2.symm
        simp at hrest
    | binary op left right =>
        rw [Head.binary_append] at h
        have hrest := t.closed left (goesOn_cons.mpr rfl) (List.cons.inj h).2.symm
        simp at hrest
    | cast type operand =>
        rw [Head.cast_append] at h
        have hword : Lead.word = .bracketed :=
          t.wordText.starts.append.unique ((List.cons.inj h).2 ▸ starts_cons '(' _)
        cases hword
    | _ => cases hlead
  · cases hlead

end

mutual

/-- The text of a path tells the path, and where it ends. -/
theorem Path.split : (p q : Path) → {r s : List Char} → GoesOn isStop r → GoesOn isStop s →
    p.chars ++ r = q.chars ++ s → p = q ∧ r = s
  | .mk addresses head steps, .mk addresses' head' steps', r, s, hr, hs, h => by
      simp only [Path.chars, List.append_assoc] at h
      obtain ⟨rfl, hhead⟩ := addresses_split h
      obtain ⟨rfl, hsteps⟩ :=
        Head.split head head' (goesOn_steps steps hr) (goesOn_steps steps' hs) hhead
      obtain ⟨rfl, rfl⟩ := steps_split steps steps' hr hs hsteps
      exact ⟨rfl, rfl⟩

theorem Head.split : (head head' : Head) → {r s : List Char} → GoesOn isBreak r →
    GoesOn isBreak s → head.chars ++ r = head'.chars ++ s → head = head' ∧ r = s
  | .word w, head', r, s, hr, hs, h => by
      have hlead := Head.lead_eq h
      cases head' with
      | word w' =>
          obtain ⟨rfl, rfl⟩ := Word.split hr hs h
          exact ⟨rfl, rfl⟩
      | _ => cases hlead
  | .quoted l, head', r, s, _, _, h => by
      have hlead := Head.lead_eq h
      cases head' with
      | quoted l' =>
          obtain ⟨rfl, rfl⟩ := Quoted.split h
          exact ⟨rfl, rfl⟩
      | _ => cases hlead
  | .static ref, head', r, s, _, _, h => by
      have hlead := Head.lead_eq h
      cases head' with
      | static ref' =>
          rw [Head.static_append, Head.static_append] at h
          obtain ⟨rfl, rfl⟩ := MemberRef.split (List.cons.inj h).2
          exact ⟨rfl, rfl⟩
      | _ => cases hlead
  | .qualified object name, head', r, s, hr, hs, h => by
      have hlead := Head.lead_eq h
      rw [Head.qualified_append] at h
      cases head' with
      | qualified object' name' =>
          rw [Head.qualified_append] at h
          obtain ⟨rfl, hname⟩ := Path.split object object' (goesOn_cons.mpr rfl)
            (goesOn_cons.mpr rfl) (List.cons.inj h).2
          simp only [List.cons.injEq, true_and] at hname
          obtain ⟨rfl, rfl⟩ := Name.split hr hs hname
          exact ⟨rfl, rfl⟩
      | binary op left right =>
          rw [Head.binary_append] at h
          obtain ⟨-, hrest⟩ := Path.split object left (goesOn_cons.mpr rfl) (goesOn_cons.mpr rfl)
            (List.cons.inj h).2
          simp at hrest
      | cast type operand =>
          rw [Head.cast_append] at h
          exact absurd (List.cons.inj h).2 (object.ne_cast type)
      | _ => cases hlead
  | .binary op left right, head', r, s, _, _, h => by
      have hlead := Head.lead_eq h
      rw [Head.binary_append] at h
      cases head' with
      | qualified object name =>
          rw [Head.qualified_append] at h
          obtain ⟨-, hrest⟩ := Path.split left object (goesOn_cons.mpr rfl) (goesOn_cons.mpr rfl)
            (List.cons.inj h).2
          simp at hrest
      | binary op' left' right' =>
          rw [Head.binary_append] at h
          obtain ⟨rfl, hop⟩ := Path.split left left' (goesOn_cons.mpr rfl) (goesOn_cons.mpr rfl)
            (List.cons.inj h).2
          obtain ⟨rfl, hright⟩ := BinaryOp.split (List.cons.inj hop).2
          obtain ⟨rfl, hrest⟩ :=
            Path.split right right' (goesOn_cons.mpr rfl) (goesOn_cons.mpr rfl) hright
          exact ⟨rfl, (List.cons.inj hrest).2⟩
      | cast type operand =>
          rw [Head.cast_append] at h
          exact absurd (List.cons.inj h).2 (left.ne_cast type)
      | _ => cases hlead
  | .cast type operand, head', r, s, _, _, h => by
      have hlead := Head.lead_eq h
      rw [Head.cast_append] at h
      cases head' with
      | qualified object name =>
          rw [Head.qualified_append] at h
          exact absurd (List.cons.inj h).2.symm (object.ne_cast type)
      | binary op left right =>
          rw [Head.binary_append] at h
          exact absurd (List.cons.inj h).2.symm (left.ne_cast type)
      | cast type' operand' =>
          rw [Head.cast_append] at h
          simp only [List.cons.injEq, true_and] at h
          obtain ⟨rfl, hoperand⟩ := TypeWord.split (goesOn_cons.mpr rfl) (goesOn_cons.mpr rfl) h
          simp only [List.cons.injEq, true_and] at hoperand
          obtain ⟨rfl, hrest⟩ :=
            Path.split operand operand' (goesOn_cons.mpr rfl) (goesOn_cons.mpr rfl) hoperand
          exact ⟨rfl, (List.cons.inj hrest).2⟩
      | _ => cases hlead

theorem Step.split : (step step' : Step) → {r s : List Char} →
    step.chars ++ r = step'.chars ++ s → step = step' ∧ r = s
  | .member ref, step', r, s, h => by
      cases step' with
      | member ref' =>
          simp only [Step.chars, List.cons_append, List.append_assoc, List.nil_append,
            List.cons.injEq, true_and] at h
          obtain ⟨rfl, rfl⟩ := MemberRef.split h
          exact ⟨rfl, rfl⟩
      | call | index => simp [Step.chars] at h
  | .call arguments, step', r, s, h => by
      cases step' with
      | call arguments' =>
          simp only [Step.chars, List.cons_append, List.append_assoc, List.nil_append,
            List.cons.injEq, true_and] at h
          obtain ⟨rfl, rfl⟩ := paths_split arguments arguments' rfl h
          exact ⟨rfl, rfl⟩
      | member | index => simp [Step.chars] at h
  | .index operands, step', r, s, h => by
      cases step' with
      | index operands' =>
          simp only [Step.chars, List.cons_append, List.append_assoc, List.nil_append,
            List.cons.injEq, true_and] at h
          obtain ⟨rfl, rfl⟩ := paths_split operands operands' rfl h
          exact ⟨rfl, rfl⟩
      | member | call => simp [Step.chars] at h

theorem steps_split : (steps steps' : List Step) → {r s : List Char} → GoesOn isStop r →
    GoesOn isStop s → stepsChars steps ++ r = stepsChars steps' ++ s → steps = steps' ∧ r = s
  | [], [], _, _, _, _, h => ⟨rfl, h⟩
  | [], step :: steps, r, s, hr, _, h => by
      obtain rfl : r = _ := h
      cases step <;> simp [stepsChars, Step.chars, isStop] at hr
  | step :: steps, [], r, s, _, hs, h => by
      obtain rfl : _ = s := h
      cases step <;> simp [stepsChars, Step.chars, isStop] at hs
  | step :: steps, step' :: steps', r, s, hr, hs, h => by
      rw [stepsChars, stepsChars, List.append_assoc, List.append_assoc] at h
      obtain ⟨rfl, hsteps⟩ := Step.split step step' h
      obtain ⟨rfl, rfl⟩ := steps_split steps steps' hr hs hsteps
      exact ⟨rfl, rfl⟩

/-- Paths between brackets, of which `c` is the closing one. -/
theorem paths_split : (paths paths' : List Path) → {c : Char} → {r s : List Char} →
    isClosing c = true → pathsChars paths ++ c :: r = pathsChars paths' ++ c :: s →
    paths = paths' ∧ r = s
  | [], [], _, _, _, _, h => ⟨rfl, (List.cons.inj h).2⟩
  | [], path :: paths, c, r, s, hc, h => absurd h (closing_ne_paths path paths hc)
  | path :: paths, [], c, r, s, hc, h => absurd h.symm (closing_ne_paths path paths hc)
  | path :: paths, path' :: paths', c, r, s, hc, h => by
      rw [pathsChars, pathsChars, List.append_assoc, List.append_assoc] at h
      obtain ⟨rfl, hothers⟩ :=
        Path.split path path' (goesOn_others paths hc) (goesOn_others paths' hc) h
      obtain ⟨rfl, rfl⟩ := others_split paths paths' hc hothers
      exact ⟨rfl, rfl⟩

theorem others_split : (paths paths' : List Path) → {c : Char} → {r s : List Char} →
    isClosing c = true → othersChars paths ++ c :: r = othersChars paths' ++ c :: s →
    paths = paths' ∧ r = s
  | [], [], _, _, _, _, h => ⟨rfl, (List.cons.inj h).2⟩
  | [], path :: paths, c, r, s, hc, h => by
      obtain rfl : c = ',' := (List.cons.inj h).1
      cases hc
  | path :: paths, [], c, r, s, hc, h => by
      obtain rfl : ',' = c := (List.cons.inj h).1
      cases hc
  | path :: paths, path' :: paths', c, r, s, hc, h => by
      simp only [othersChars, List.cons_append, List.append_assoc, List.cons.injEq, true_and] at h
      obtain ⟨rfl, hothers⟩ :=
        Path.split path path' (goesOn_others paths hc) (goesOn_others paths' hc) h
      obtain ⟨rfl, rfl⟩ := others_split paths paths' hc hothers
      exact ⟨rfl, rfl⟩

end

/-! ## Expressions that are paths -/

/-- The path with a further step, if it is no address. -/
def Path.then? : Path → Step → Option Path
  | .mk 0 head steps, step => some (.mk 0 head (steps ++ [step]))
  | .mk (_ + 1) _ _, _ => none

def Path.address : Path → Path
  | .mk addresses head steps => .mk (addresses + 1) head steps

def Head.path (head : Head) : Path := .mk 0 head []

mutual

/-- The path that an expression is, if it is one. -/
def Expr.path? : Expr → Option Path
  | ⟨form, _, _⟩ => form.path?

def ExprForm.path? : ExprForm → Option Path
  | .literal (.char value) => some (Head.quoted (.char value)).path
  | .literal (.string value) => some (Head.quoted (.string value)).path
  | .qualified qualifier name => do
    let object ← qualifier.path?
    if h : Unbroken name.toList then return (Head.qualified object ⟨name, h⟩).path else none
  | .binary op left right => return (Head.binary op (← left.path?) (← right.path?)).path
  | .cast operand target => do
    let path ← operand.path?
    if h : target.isWord = true then return (Head.cast ⟨target, h⟩ path).path else none
  | .member none ref => some (Head.static ref).path
  | .member (some receiver) ref => do (← receiver.path?).then? (.member ref)
  | .call callee arguments => do (← callee.path?).then? (.call (← paths? arguments))
  | .indexer object operands => do (← object.path?).then? (.index (← paths? operands))
  | .addressOf operand => return (← operand.path?).address
  | form => if h : form.isWord = true then some (Head.word ⟨form, h⟩).path else none

def paths? : List Expr → Option (List Path)
  | [] => some []
  | e :: es => return (← e.path?) :: (← paths? es)

end

def addressOf : Nat → Expr → Expr
  | 0, e => e
  | n + 1, e => (ExprForm.addressOf (addressOf n e)).expr

mutual

/-- The bare expression that is the path. -/
def Path.expr : Path → Expr
  | .mk addresses head steps => addressOf addresses (stepsExpr head.expr steps)

def Head.expr : Head → Expr
  | .word word => word.form.expr
  | .quoted constant => (ExprForm.literal constant.literal).expr
  | .static ref => (ExprForm.member none ref).expr
  | .qualified object name => (ExprForm.qualified object.expr name.text).expr
  | .binary op left right => (ExprForm.binary op left.expr right.expr).expr
  | .cast type operand => (ExprForm.cast operand.expr type.type).expr

def Step.form (e : Expr) : Step → ExprForm
  | .member ref => .member (some e) ref
  | .call arguments => .call e (pathsExprs arguments)
  | .index operands => .indexer e (pathsExprs operands)

def stepsExpr (e : Expr) : List Step → Expr
  | [] => e
  | step :: steps => stepsExpr (step.form e).expr steps

def pathsExprs : List Path → List Expr
  | [] => []
  | path :: paths => path.expr :: pathsExprs paths

end

theorem stepsChars_append (steps steps' : List Step) :
    stepsChars (steps ++ steps') = stepsChars steps ++ stepsChars steps' := by
  induction steps with
  | nil => rfl
  | cons step steps ih => rw [List.cons_append, stepsChars, stepsChars, ih, List.append_assoc]

theorem stepsExpr_append (e : Expr) (steps : List Step) (step : Step) :
    stepsExpr e (steps ++ [step]) = (step.form (stepsExpr e steps)).expr := by
  induction steps generalizing e with
  | nil => rfl
  | cons step' steps ih => rw [List.cons_append, stepsExpr, ih, stepsExpr]

theorem Path.of_then? {p q : Path} {step : Step} (h : p.then? step = some q) :
    q.chars = p.chars ++ step.chars ∧ q.expr = (step.form p.expr).expr := by
  obtain ⟨_ | n, head, steps⟩ := p
  · obtain rfl := Option.some.inj h
    constructor
    · simp only [Path.chars, stepsChars_append, stepsChars, List.append_nil, List.append_assoc]
    · exact stepsExpr_append head.expr steps step
  · cases h

theorem Path.chars_address (p : Path) : p.address.chars = '&' :: p.chars := by
  obtain ⟨addresses, head, steps⟩ := p
  rfl

theorem Path.expr_address (p : Path) : p.address.expr = (ExprForm.addressOf p.expr).expr := by
  obtain ⟨addresses, head, steps⟩ := p
  rfl

theorem Head.chars_path (head : Head) : head.path.chars = head.chars := by
  rw [Head.path, Path.chars, stepsChars, List.append_nil]
  rfl

theorem Head.expr_path (head : Head) : head.path.expr = head.expr := rfl

/-- The expression has the path's text, and is the path if it is made bare. -/
structure Expr.Reads (e : Expr) (p : Path) : Prop where
  text : e.text.toList = p.chars
  bare : e.bare = p.expr

theorem exprsText_cons (e : Expr) (es : List Expr) : (exprsText (e :: es)).toList =
    e.text.toList ++ es.flatMap fun e => ',' :: ' ' :: e.text.toList := by
  induction es generalizing e with
  | nil => simp [exprsText]
  | cons e' es ih =>
      have hrest := ih e'
      simp only [exprsText, String.toList_append, hrest]
      simp

/-- The same for a list, by its text between brackets and by its text behind another
    expression. -/
structure ReadAll (es : List Expr) (paths : List Path) : Prop where
  text : (exprsText es).toList = pathsChars paths
  others : (es.flatMap fun e => ',' :: ' ' :: e.text.toList) = othersChars paths
  bare : exprsBare es = pathsExprs paths

theorem ExprForm.text_of_isWord {form : ExprForm} (h : form.isWord = true)
    (source : Option SourceContext) : form.text source = form.text none := by
  cases form with
  | literal | identifier | thisRef | baseRef | setterValue | temporary => rfl
  | _ => exact Bool.noConfusion h

theorem ExprForm.bare_of_isWord {form : ExprForm} (h : form.isWord = true) : form.bare = form := by
  cases form with
  | literal | identifier | thisRef | baseRef | setterValue | temporary => rfl
  | _ => exact Bool.noConfusion h

theorem TypeRef.bare_of_isWord {t : TypeRef} (h : t.isWord = true) : t.bare = t := by
  cases t with
  | primitive | bound => rfl
  | _ => exact Bool.noConfusion h

/-- What is only a path as a word. -/
theorem ExprForm.reads_of_word {form : ExprForm}
    (hform : form.path? = if h : form.isWord = true then some (Head.word ⟨form, h⟩).path else none)
    (type : Option TypeRef) (source : Option SourceContext) {p : Path} (h : form.path? = some p) :
    Expr.Reads ⟨form, type, source⟩ p := by
  rw [hform] at h
  split at h
  · rename_i hword
    obtain rfl := Option.some.inj h
    constructor
    · rw [Expr.text, ExprForm.text_of_isWord hword, Head.chars_path]
      rfl
    · rw [Expr.bare, ExprForm.bare_of_isWord hword]
      rfl
  · cases h

mutual

theorem Expr.reads_of_path? : (e : Expr) → {p : Path} → e.path? = some p → e.Reads p
  | ⟨form, type, source⟩, _, h => ExprForm.reads_of_path? form type source h

theorem ExprForm.reads_of_path? : (form : ExprForm) → (type : Option TypeRef) →
    (source : Option SourceContext) → {p : Path} → form.path? = some p →
    Expr.Reads ⟨form, type, source⟩ p
  | .qualified qualifier name => by
      intro type source p h
      obtain ⟨object, hobject, h⟩ := Option.bind_eq_some_iff.mp h
      have ih := Expr.reads_of_path? qualifier hobject
      split at h
      · obtain rfl := Option.some.inj h
        constructor
        · simp [Expr.text, ExprForm.text, ih.text, Head.chars_path, Head.chars]
        · simp [Expr.bare, ExprForm.bare, ih.bare, Head.expr_path, Head.expr, ExprForm.expr]
      · cases h
  | .binary op left right => by
      intro type source p h
      obtain ⟨l, hl, h⟩ := Option.bind_eq_some_iff.mp h
      obtain ⟨r, hr, h⟩ := Option.bind_eq_some_iff.mp h
      obtain rfl := Option.some.inj h
      have ihl := Expr.reads_of_path? left hl
      have ihr := Expr.reads_of_path? right hr
      constructor
      · simp [Expr.text, ExprForm.text, ihl.text, ihr.text, Head.chars_path, Head.chars]
      · simp [Expr.bare, ExprForm.bare, ihl.bare, ihr.bare, Head.expr_path, Head.expr,
          ExprForm.expr]
  | .cast operand target => by
      intro type source p h
      obtain ⟨path, hpath, h⟩ := Option.bind_eq_some_iff.mp h
      have ih := Expr.reads_of_path? operand hpath
      split at h
      · rename_i htarget
        obtain rfl := Option.some.inj h
        constructor
        · simp [Expr.text, ExprForm.text, ih.text, Head.chars_path, Head.chars, TypeWord.chars]
        · simp [Expr.bare, ExprForm.bare, ih.bare, TypeRef.bare_of_isWord htarget, Head.expr_path,
            Head.expr, ExprForm.expr]
      · cases h
  | .member none ref => by
      intro type source p h
      obtain rfl := Option.some.inj h
      constructor
      · simp [Expr.text, ExprForm.text, receiverText, Head.chars_path, Head.chars]
      · rfl
  | .member (some receiver) ref => by
      intro type source p h
      obtain ⟨path, hpath, h⟩ := Option.bind_eq_some_iff.mp h
      have ih := Expr.reads_of_path? receiver hpath
      obtain ⟨hchars, hexpr⟩ := Path.of_then? h
      constructor
      · simp [Expr.text, ExprForm.text, receiverText, ih.text, hchars, Step.chars]
      · simp [Expr.bare, ExprForm.bare, exprBare, ih.bare, hexpr, Step.form, ExprForm.expr]
  | .call callee arguments => by
      intro type source p h
      obtain ⟨path, hpath, h⟩ := Option.bind_eq_some_iff.mp h
      obtain ⟨paths, hpaths, h⟩ := Option.bind_eq_some_iff.mp h
      have ih := Expr.reads_of_path? callee hpath
      have iha := readAll_of_paths? arguments hpaths
      obtain ⟨hchars, hexpr⟩ := Path.of_then? h
      constructor
      · simp [Expr.text, ExprForm.text, ih.text, iha.text, hchars, Step.chars]
      · simp [Expr.bare, ExprForm.bare, ih.bare, iha.bare, hexpr, Step.form, ExprForm.expr]
  | .indexer object operands => by
      intro type source p h
      obtain ⟨path, hpath, h⟩ := Option.bind_eq_some_iff.mp h
      obtain ⟨paths, hpaths, h⟩ := Option.bind_eq_some_iff.mp h
      have ih := Expr.reads_of_path? object hpath
      have iho := readAll_of_paths? operands hpaths
      obtain ⟨hchars, hexpr⟩ := Path.of_then? h
      constructor
      · simp [Expr.text, ExprForm.text, ih.text, iho.text, hchars, Step.chars]
      · simp [Expr.bare, ExprForm.bare, ih.bare, iho.bare, hexpr, Step.form, ExprForm.expr]
  | .literal l => by
      intro type source p h
      cases l with
      | char | string =>
          obtain rfl := Option.some.inj h
          constructor
          · simp [Expr.text, ExprForm.text, Literal.text, Text.literal, Head.chars_path, Head.chars,
              Quoted.chars]
          · rfl
      | _ => exact ExprForm.reads_of_word rfl type source h
  | .addressOf operand => by
      intro type source p h
      obtain ⟨path, hpath, h⟩ := Option.bind_eq_some_iff.mp h
      obtain rfl := Option.some.inj h
      have ih := Expr.reads_of_path? operand hpath
      constructor
      · simp [Expr.text, ExprForm.text, ih.text, Path.chars_address]
      · simp [Expr.bare, ExprForm.bare, ih.bare, Path.expr_address, ExprForm.expr]
  | .identifier _ | .thisRef | .baseRef | .setterValue | .temporary _ | .assignment _
  | .constructArray _ _ _ | .construct _ _ | .constructDelegate _ _ _ | .typeExpr _ | .typeOf _
  | .snippet | .block _ | .missing => ExprForm.reads_of_word rfl

theorem readAll_of_paths? : (es : List Expr) → {paths : List Path} → paths? es = some paths →
    ReadAll es paths
  | [], paths, h => by
      obtain rfl := Option.some.inj h
      exact ⟨rfl, rfl, rfl⟩
  | e :: es, paths, h => by
      obtain ⟨path, hpath, h⟩ := Option.bind_eq_some_iff.mp h
      obtain ⟨others, hothers, h⟩ := Option.bind_eq_some_iff.mp h
      obtain rfl := Option.some.inj h
      have ih := Expr.reads_of_path? e hpath
      have ihs := readAll_of_paths? es hothers
      constructor
      · rw [exprsText_cons, ih.text, ihs.others, pathsChars]
      · rw [List.flatMap_cons, ih.text, ihs.others, othersChars]
        simp
      · rw [exprsBare, ih.bare, ihs.bare, pathsExprs]

end

mutual

theorem Expr.path?_bare : (e : Expr) → e.bare.path? = e.path?
  | ⟨form, _, _⟩ => ExprForm.path?_bare form

theorem ExprForm.path?_bare : (form : ExprForm) → form.bare.path? = form.path?
  | .qualified qualifier name => by
      simp only [ExprForm.bare, ExprForm.path?, Expr.path?_bare qualifier]
  | .binary op left right => by
      simp only [ExprForm.bare, ExprForm.path?, Expr.path?_bare left, Expr.path?_bare right]
  | .cast operand target => by
      simp only [ExprForm.bare, ExprForm.path?, Expr.path?_bare operand]
      cases target <;> rfl
  | .member none ref => rfl
  | .member (some receiver) ref => by
      simp only [ExprForm.bare, exprBare, ExprForm.path?, Expr.path?_bare receiver]
  | .call callee arguments => by
      simp only [ExprForm.bare, ExprForm.path?, Expr.path?_bare callee, paths?_bare arguments]
  | .indexer object operands => by
      simp only [ExprForm.bare, ExprForm.path?, Expr.path?_bare object, paths?_bare operands]
  | .addressOf operand => by
      simp only [ExprForm.bare, ExprForm.path?, Expr.path?_bare operand]
  | .literal _ | .identifier _ | .thisRef | .baseRef | .setterValue | .temporary _
  | .assignment _ | .constructArray _ _ _ | .construct _ _ | .constructDelegate _ _ _
  | .typeExpr _ | .typeOf _ | .snippet | .block _ | .missing => rfl

theorem paths?_bare : (es : List Expr) → paths? (exprsBare es) = paths? es
  | [] => rfl
  | e :: es => by simp only [exprsBare, paths?, Expr.path?_bare e, paths?_bare es]

end

/-- The expression is an access path. -/
def Expr.IsPath (e : Expr) : Prop := e.path?.isSome = true

instance (e : Expr) : Decidable e.IsPath := inferInstanceAs (Decidable (_ = true))

/-- The texts of paths show what they are, static types and sources apart. -/
theorem Expr.text_eq_iff_bare_eq {e f : Expr} (he : e.IsPath) (hf : f.IsPath) :
    e.text = f.text ↔ e.bare = f.bare := by
  obtain ⟨p, hp⟩ := Option.isSome_iff_exists.mp he
  obtain ⟨q, hq⟩ := Option.isSome_iff_exists.mp hf
  have hep := Expr.reads_of_path? e hp
  have hfq := Expr.reads_of_path? f hq
  constructor
  · intro h
    have hchars : p.chars ++ [] = q.chars ++ [] := by
      rw [List.append_nil, List.append_nil, ← hep.text, ← hfq.text, h]
    obtain ⟨rfl, -⟩ := Path.split p q goesOn_nil goesOn_nil hchars
    rw [hep.bare, hfq.bare]
  · intro h
    have hpq : some p = some q := by
      rw [← hp, ← hq, ← Expr.path?_bare e, h, Expr.path?_bare]
    obtain rfl := Option.some.inj hpq
    exact String.toList_inj.mp (hep.text.trans hfq.text.symm)

end MiddleEnd
