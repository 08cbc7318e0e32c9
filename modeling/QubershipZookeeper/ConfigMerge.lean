import Mathlib.Data.List.Nodup
import QubershipZookeeper.ShellText

/-!
# Merging variables into `zoo.cfg` (`docker-entrypoint.sh`)

At its start a server takes every variable `CONF_ZOOKEEPER_<NAME>=<value>` as a property of
`zoo.cfg`: underscores of the name become dots, and a line of the property, also one that is
commented out, is replaced, or else a new one is added at the end. The name and the value
reach `grep` and `sed` as they are. So a dot of the name stands for any character, and `&` and
backslashes of the value for something else than themselves; and since `sed` cuts the name off
greedily, a value with an equals sign ends the script.

The merge does what it should when none of this matters (`Clean`, `merged_of_clean`).
-/

namespace QubershipZookeeper

namespace ConfigMerge

open Text

/-! ## The script -/

/-- A variable of the environment, by what follows `CONF_ZOOKEEPER_`. -/
structure Variable where
  name : Text
  value : Text
  deriving DecidableEq

/-- `CONF_ZOOKEEPER_`. -/
def namePrefix : Text := "CONF_ZOOKEEPER_".toList

/-- The line of `env`. -/
def Variable.line (v : Variable) : Text := namePrefix ++ v.name ++ '=' :: v.value

/-- `sed -r "s/(.*)=.*/\1/g"`. -/
def envVar (line : Text) : Text := beforeLast '=' line

/-- `sed -r "s/^CONF_ZOOKEEPER_(.*)=.*/\1/g" | tr _ .`. -/
def propName (line : Text) : Text :=
  ((beforeLast '=' line).drop namePrefix.length).map fun c => if c = '_' then '.' else c

/-- A character of a name in the shell. -/
def isNameChar (c : Char) : Bool := c.isAlphanum || c = '_'

/-- `${!name}`, which ends the script if it is not the name of a variable. -/
def indirect (vars : List Variable) (name : Text) : Option Text :=
  if name.all isNameChar then
    some ((vars.find? fun v => namePrefix ++ v.name = name).elim [] Variable.value)
  else none

/-- What the pattern `(^|^#)(<name>)=(.*)` finds in a line. -/
structure Match where
  hash : Bool
  name : Text
  rest : Text
  deriving DecidableEq

/-- The name, in which a dot stands for any character, and an equals sign. -/
def matchName : Text → Text → Option (Text × Text)
  | [], '=' :: rest => some ([], rest)
  | p :: pattern, c :: text =>
    if p = '.' ∨ p = c then (matchName pattern text).map fun m => (c :: m.1, m.2) else none
  | _, _ => none

/-- The pattern, at the beginning of a line. If it is there with and without the hash, the
longer first part is taken. -/
def matchLine (pattern line : Text) : Option Match :=
  let plain := (matchName pattern line).map fun m => ⟨false, m.1, m.2⟩
  match line with
  | '#' :: text => ((matchName pattern text).map fun m => ⟨true, m.1, m.2⟩).or plain
  | _ => plain

/-- How `sed` reads the text of a replacement after `\2=`; `none` is an error. Nothing but `&` and
backslashes is special in it. -/
structure Sed where
  expand : Text → Match → Option Text
  expand_plain : ∀ {value : Text} (m : Match), '&' ∉ value → '\\' ∉ value →
    expand value m = some value

variable (sed : Sed)

/-- `s@(^|^#)($prop_name)=(.*)@\2=${!env_var}@g`. -/
def replaceLine (pattern value line : Text) : Option Text :=
  (matchLine pattern line).elim (some line) fun m =>
    (sed.expand value m).map fun text => m.name ++ '=' :: text

/-- One round of the loop. -/
def mergeVariable (vars : List Variable) (file : List Text) (line : Text) : Option (List Text) := do
  let value ← indirect vars (envVar line)
  if file.any fun l => (matchLine (propName line) l).isSome then
    file.mapM (replaceLine sed (propName line) value)
  else pure (file ++ [propName line ++ '=' :: value])

/-- The loop, over the variables in the order of `env`. -/
def mergeLines (vars : List Variable) (file : List Text) : Option (List Text) :=
  vars.foldlM (fun file v => mergeVariable sed vars file v.line) file

/-- `newline_at_eof`. -/
def newlineAtEof (text : Text) : Bool := text = [] || text.getLast? = some '\n'

/-- The merge in `start`. -/
def merge (vars : List Variable) (text : Text) : Option Text :=
  let text := if newlineAtEof text then text else text ++ ['\n']
  (mergeLines sed vars (lines text)).map unlines

/-! ## What it is for -/

/-- The property of a variable. -/
def Variable.property (v : Variable) : Text := v.name.map fun c => if c = '_' then '.' else c

/-- The line that sets it. -/
def Variable.setting (v : Variable) : Text := v.property ++ '=' :: v.value

/-- A line without the hash that comments it out. -/
def uncommented : Text → Text
  | '#' :: line => line
  | line => line

/-- The property that a line is about, also if it is commented out. -/
def propertyOf (line : Text) : Option Text :=
  if '=' ∈ uncommented line then some (cutAt '=' (uncommented line)).1 else none

/-- The property that a line sets, with its value. -/
def activeSetting (line : Text) : Option (Text × Text) :=
  if line.head? = some '#' ∨ '=' ∉ line then none else some (cutAt '=' line)

/-- The value of a property: the last line that sets it counts. -/
def activeValue (file : List Text) (property : Text) : Option Text :=
  (((file.filterMap activeSetting).filter fun s => s.1 = property).getLast?).map Prod.snd

/-- The lines that are about none of the variables. -/
def otherLines (vars : List Variable) (file : List Text) : List Text :=
  file.filter fun line => ∀ v ∈ vars, propertyOf line ≠ some v.property

/-- What the merge should bring about: every variable is the value of its property, and the lines of
other properties are as they were. -/
structure Merged (vars : List Variable) (before after : Text) : Prop where
  values : ∀ v ∈ vars, activeValue (lines after) v.property = some v.value
  others : otherLines vars (lines after) = otherLines vars (lines before)

/-- In every order of the variables the merge comes to its end and does what it should, and the
values of all properties are the same. -/
def Merges (vars : List Variable) (text : Text) : Prop :=
  ∃ value : Text → Option Text, ∀ order, order.Perm vars → ∃ after,
    merge sed order text = some after ∧ Merged vars text after ∧
      ∀ property, activeValue (lines after) property = value property

/-! ## When it does -/

/-- Names, values and lines for which it does not matter what is special to the shell, `grep` and
`sed`. -/
structure Clean (vars : List Variable) (file : List Text) : Prop where
  names : ∀ v ∈ vars, v.name.all isNameChar = true
  noEquals : ∀ v ∈ vars, '=' ∉ v.value
  plain : ∀ v ∈ vars, (∃ line ∈ file, propertyOf line = some v.property) →
    '&' ∉ v.value ∧ '\\' ∉ v.value
  ownLines : ∀ v ∈ vars, ∀ line ∈ file, (matchLine v.property line).isSome →
    propertyOf line = some v.property
  apart : ∀ v ∈ vars, ∀ other ∈ vars, other ≠ v → matchLine v.property other.setting = none

section Names

variable {v : Variable}

/-- A property has the characters of its variable, and dots. -/
theorem notMem_property {c : Char} (h : v.name.all isNameChar = true) (hc : isNameChar c = false)
    (hdot : c ≠ '.') : c ∉ v.property := by
  intro hmem
  obtain ⟨x, hx, rfl⟩ := List.mem_map.mp hmem
  have hname := List.all_eq_true.mp h x hx
  split at hc
  · exact hdot (if_pos ‹_›)
  · rw [hname] at hc
    cases hc

theorem envVar_line (h : '=' ∉ v.value) : envVar v.line = namePrefix ++ v.name :=
  beforeLast_append h _

/-- A variable is turned into the name of its property. -/
theorem propName_line (h : '=' ∉ v.value) : propName v.line = v.property := by
  rw [propName, show beforeLast '=' v.line = _ from envVar_line h, List.drop_left]
  rfl

/-- A value with an equals sign ends the script. -/
theorem indirect_line_of_mem (h : '=' ∈ v.value) (vars : List Variable) :
    indirect vars (envVar v.line) = none := by
  refine if_neg fun hall => ?_
  have hmem : '=' ∈ envVar v.line := mem_beforeLast h _
  exact absurd (List.all_eq_true.mp hall '=' hmem) (by decide)

/-- The indirect expansion finds the value of the variable. -/
theorem indirect_line {vars : List Variable} (hv : v ∈ vars) (h : v.name.all isNameChar = true)
    (hequals : '=' ∉ v.value) (hdistinct : ∀ v' ∈ vars, v'.property = v.property → v' = v) :
    indirect vars (envVar v.line) = some v.value := by
  have hprefix : namePrefix.all isNameChar = true := by decide
  rw [envVar_line hequals, indirect, if_pos (by rw [List.all_append, hprefix, h]; rfl)]
  rcases hfind : vars.find? fun v' => namePrefix ++ v'.name = namePrefix ++ v.name with - | found
  · exact absurd (decide_eq_true rfl) (List.find?_eq_none.mp hfind v hv)
  · have hname := List.find?_some hfind
    rw [decide_eq_true_eq, List.append_cancel_left_eq] at hname
    rw [hfind, hdistinct found (List.mem_of_find?_eq_some hfind)
      (by rw [Variable.property, hname, Variable.property])]
    rfl

end Names

section Lines

theorem matchName_self (name rest : Text) :
    matchName name (name ++ '=' :: rest) = some (name, rest) := by
  induction name with
  | nil => rfl
  | cons c name ih => rw [List.cons_append, matchName, if_pos (.inr rfl), ih, Option.map_some]

/-- A line of a property is found by its name. -/
theorem matchLine_of_propertyOf {line property : Text} (h : propertyOf line = some property) :
    ∃ hash rest, matchLine property line = some ⟨hash, property, rest⟩ := by
  unfold propertyOf at h
  split at h <;> cases h
  next hequals =>
    have hself := matchName_self (cutAt '=' (uncommented line)).1 (cutAt '=' (uncommented line)).2
    rw [append_cutAt hequals] at hself
    unfold matchLine
    split
    next text =>
      rw [show uncommented ('#' :: text) = text from rfl] at hself ⊢
      exact ⟨true, _, by rw [hself]; rfl⟩
    next hplain =>
      have hline : uncommented line = line := by
        unfold uncommented
        split
        next text => exact absurd rfl (hplain text)
        · rfl
      rw [hline] at hself ⊢
      exact ⟨false, _, by rw [hself]; rfl⟩

/-- A line that sets a property is about it. -/
theorem propertyOf_of_activeSetting {line property value : Text}
    (h : activeSetting line = some (property, value)) : propertyOf line = some property := by
  unfold activeSetting at h
  split at h <;> cases h
  next hline =>
    obtain ⟨hhash, hequals⟩ := not_or.mp hline
    have huncommented : uncommented line = line := by
      unfold uncommented
      split
      · exact absurd rfl hhash
      · rfl
    rw [propertyOf, huncommented, if_pos (not_not.mp hequals)]
    rfl

/-- A setting that was written is active. -/
theorem activeSetting_setting {v : Variable} (h : v.name.all isNameChar = true) :
    activeSetting v.setting = some (v.property, v.value) := by
  have hequals : '=' ∉ v.property := notMem_property h (by decide) (by decide)
  have hhash : '#' ∉ v.property := notMem_property h (by decide) (by decide)
  rw [activeSetting, if_neg, Variable.setting, cutAt_append hequals]
  rw [not_or, not_not]
  refine ⟨fun hhead => ?_, List.mem_append_right _ List.mem_cons_self⟩
  rcases hproperty : v.property with - | ⟨c, cs⟩ <;> rw [Variable.setting, hproperty] at hhead
  · cases hhead
  · cases hhead
    exact hhash (by rw [hproperty]; exact List.mem_cons_self)

theorem propertyOf_setting {v : Variable} (h : v.name.all isNameChar = true) :
    propertyOf v.setting = some v.property :=
  propertyOf_of_activeSetting (activeSetting_setting h)

end Lines

/-! ## The loop -/

section Loop

variable {sed : Sed} {vars : List Variable} {before : List Text}

/-- What holds after some of the variables have been merged. -/
structure Progress (vars : List Variable) (before : List Text) (merged : List Variable)
    (file : List Text) : Prop where
  lines : ∀ line ∈ file, line ∈ before ∨ ∃ v ∈ merged, line = v.setting
  set : ∀ v ∈ merged, v.setting ∈ file
  own : ∀ v ∈ merged, ∀ line ∈ file, propertyOf line = some v.property → line = v.setting
  others : otherLines vars file = otherLines vars before

theorem mapM_eq_some {α β : Type} {f : α → Option β} {g : α → β} {xs : List α}
    (h : ∀ x ∈ xs, f x = some (g x)) : xs.mapM f = some (xs.map g) := by
  induction xs with
  | nil => rfl
  | cons x xs ih =>
    rw [List.mapM_cons, h x List.mem_cons_self, ih fun y hy => h y (List.mem_cons_of_mem x hy)]
    rfl

/-- The file after a variable has been merged into lines of its property. -/
def setLines (v : Variable) (file : List Text) : List Text :=
  file.map fun line => if propertyOf line = some v.property then v.setting else line

/-- Setting the lines of a variable leaves the lines of the others alone. -/
theorem otherLines_setLines {v : Variable} (hv : v ∈ vars) (hname : v.name.all isNameChar = true)
    (file : List Text) : otherLines vars (setLines v file) = otherLines vars file := by
  induction file with
  | nil => rfl
  | cons line file ih =>
    rw [otherLines, otherLines] at ih ⊢
    rw [setLines, List.map_cons, ← setLines]
    by_cases hline : propertyOf line = some v.property
    · have hset := propertyOf_setting hname
      rw [if_pos hline, List.filter_cons_of_neg (by simpa using ⟨v, hv, hset⟩),
        List.filter_cons_of_neg (by simpa using ⟨v, hv, hline⟩), ih]
    · rw [if_neg hline, List.filter_cons, List.filter_cons, ih]

/-- A setting that is appended is none of the other lines. -/
theorem otherLines_append_setting {v : Variable} (hv : v ∈ vars)
    (hname : v.name.all isNameChar = true) (file : List Text) :
    otherLines vars (file ++ [v.setting]) = otherLines vars file := by
  have hset := propertyOf_setting hname
  rw [otherLines, List.filter_append, List.filter_cons_of_neg (by simpa using ⟨v, hv, hset⟩),
    List.filter_nil, List.append_nil, otherLines]

/-- Progress by a variable, if its setting is in the file and every other line of the file is one of
the lines before that is about something else. -/
theorem Progress.of_lines {merged : List Variable} {file file' : List Text}
    (h : Progress vars before merged file) (hclean : Clean vars before)
    (hdistinct : ∀ v ∈ vars, ∀ v' ∈ vars, v'.property = v.property → v' = v)
    (hmerged : ∀ v ∈ merged, v ∈ vars) {v : Variable} (hv : v ∈ vars) (hnew : v ∉ merged)
    (hset : v.setting ∈ file')
    (hlines : ∀ line ∈ file', line = v.setting ∨ line ∈ file ∧ propertyOf line ≠ some v.property)
    (hkept : ∀ line ∈ file, propertyOf line ≠ some v.property → line ∈ file')
    (hothers : otherLines vars file' = otherLines vars file) :
    Progress vars before (merged ++ [v]) file' := by
  refine ⟨fun line hline => ?_, fun u hu => ?_, fun u hu line hline hproperty => ?_,
    hothers.trans h.others⟩
  · rcases hlines line hline with rfl | ⟨hfile, -⟩
    · exact .inr ⟨v, by simp, rfl⟩
    · refine (h.lines line hfile).imp_right ?_
      rintro ⟨u, hu, rfl⟩
      exact ⟨u, List.mem_append_left _ hu, rfl⟩
  · rcases List.mem_append.mp hu with hu | hu
    · refine hkept _ (h.set u hu) fun hproperty => ?_
      rw [propertyOf_setting (hclean.names u (hmerged u hu)), Option.some.injEq] at hproperty
      exact hnew (hdistinct v hv u (hmerged u hu) hproperty ▸ hu)
    · rw [List.mem_singleton.mp hu]
      exact hset
  · rcases hlines line hline with rfl | ⟨hfile, hne⟩
    · rw [propertyOf_setting (hclean.names v hv), Option.some.injEq] at hproperty
      have huv : u ∈ vars := (List.mem_append.mp hu).elim (hmerged u) fun hu =>
        (List.mem_singleton.mp hu) ▸ hv
      rw [hdistinct u huv v hv hproperty]
    · rcases List.mem_append.mp hu with hu | hu
      · exact h.own u hu line hfile hproperty
      · exact absurd ((List.mem_singleton.mp hu) ▸ hproperty) hne

/-- One round of the loop. -/
theorem Progress.step (hclean : Clean vars before)
    (hdistinct : ∀ v ∈ vars, ∀ v' ∈ vars, v'.property = v.property → v' = v)
    {order merged : List Variable} (horder : ∀ v, v ∈ order ↔ v ∈ vars) {file : List Text}
    (h : Progress vars before merged file) (hmerged : ∀ v ∈ merged, v ∈ vars) {v : Variable}
    (hv : v ∈ vars) (hnew : v ∉ merged) :
    ∃ file', mergeVariable sed order file v.line = some file' ∧
      Progress vars before (merged ++ [v]) file' := by
  have hname := hclean.names v hv
  have hequals := hclean.noEquals v hv
  have hvalue : indirect order (envVar v.line) = some v.value :=
    indirect_line ((horder v).mpr hv) hname hequals fun v' hv' =>
      hdistinct v hv v' ((horder v').mp hv')
  -- a line that the name matches is a line of the property, and has been there from the beginning
  have hfound : ∀ line ∈ file, (matchLine v.property line).isSome →
      propertyOf line = some v.property ∧ line ∈ before := by
    intro line hline hmatch
    rcases h.lines line hline with hbefore | ⟨other, hother, rfl⟩
    · exact ⟨hclean.ownLines v hv line hbefore hmatch, hbefore⟩
    · rw [hclean.apart v hv other (hmerged other hother) fun heq => hnew (heq ▸ hother)] at hmatch
      cases hmatch
  have hmatches : ∀ line, propertyOf line = some v.property →
    (matchLine v.property line).isSome := by
    intro line hline
    obtain ⟨hash, rest, hmatch⟩ := matchLine_of_propertyOf hline
    exact Option.isSome_of_eq_some hmatch
  simp only [mergeVariable, hvalue, propName_line hequals, Option.bind_eq_bind, Option.bind_some]
  split
  next hany =>
    have hreplace : file.mapM (replaceLine sed v.property v.value) = some (setLines v file) := by
      refine mapM_eq_some fun line hline => ?_
      by_cases hown : propertyOf line = some v.property
      · obtain ⟨hash, rest, hmatch⟩ := matchLine_of_propertyOf hown
        obtain ⟨hamp, hslash⟩ := hclean.plain v hv
          ⟨line, (hfound line hline (hmatches line hown)).2, hown⟩
        rw [replaceLine, hmatch, if_pos hown]
        simp only [Option.elim_some, sed.expand_plain _ hamp hslash, Option.map_some]
        rfl
      · have hnone : matchLine v.property line = none :=
          Option.not_isSome_iff_eq_none.mp fun hsome => hown (hfound line hline hsome).1
        rw [replaceLine, hnone, if_neg hown]
        rfl
    refine ⟨setLines v file, hreplace, h.of_lines hclean hdistinct hmerged hv hnew ?_
      (fun line hline => ?_) (fun line hline hne => ?_) (otherLines_setLines hv hname file)⟩
    · obtain ⟨line, hline, hmatch⟩ := List.any_eq_true.mp hany
      exact List.mem_map.mpr ⟨line, hline, if_pos (hfound line hline hmatch).1⟩
    · obtain ⟨old, hold, rfl⟩ := List.mem_map.mp hline
      split
      · exact .inl rfl
      next hne => exact .inr ⟨hold, hne⟩
    · exact List.mem_map.mpr ⟨line, hline, if_neg hne⟩
  next hnone =>
    have hfree : ∀ line ∈ file, propertyOf line ≠ some v.property := fun line hline hown =>
      hnone (List.any_eq_true.mpr ⟨line, hline, hmatches line hown⟩)
    refine ⟨file ++ [v.setting], rfl, h.of_lines hclean hdistinct hmerged hv hnew (by simp)
      (fun line hline => ?_) (fun line hline _ => List.mem_append_left _ hline)
      (otherLines_append_setting hv hname file)⟩
    rcases List.mem_append.mp hline with hline | hline
    · exact .inr ⟨hline, hfree line hline⟩
    · exact .inl (List.mem_singleton.mp hline)

/-- The loop. -/
theorem mergeLines_progress (sed : Sed) (hclean : Clean vars before)
    (hdistinct : ∀ v ∈ vars, ∀ v' ∈ vars, v'.property = v.property → v' = v)
    {order : List Variable} (horder : order.Perm vars) (hnodup : order.Nodup) :
    ∃ file, mergeLines sed order before = some file ∧ Progress vars before order file := by
  have hmem : ∀ v, v ∈ order ↔ v ∈ vars := fun v => horder.mem_iff
  -- induction over the variables that are left, with those that are merged as the invariant
  suffices h : ∀ (rest merged : List Variable) (file : List Text), order = merged ++ rest →
      Progress vars before merged file → ∃ file',
        rest.foldlM (fun file v => mergeVariable sed order file v.line) file = some file' ∧
          Progress vars before order file' from
    h order [] before rfl ⟨fun _ hline => .inl hline, fun _ h => absurd h List.not_mem_nil,
      fun _ h => absurd h List.not_mem_nil, rfl⟩
  intro rest
  induction rest with
  | nil =>
    rintro merged file heq h
    rw [List.append_nil] at heq
    exact ⟨file, rfl, heq ▸ h⟩
  | cons v rest ih =>
    rintro merged file heq h
    have hmerged : ∀ u ∈ merged, u ∈ vars := fun u hu =>
      (hmem u).mp (heq ▸ List.mem_append_left _ hu)
    have hv : v ∈ vars := (hmem v).mp (heq ▸ List.mem_append_right _ List.mem_cons_self)
    have hnew : v ∉ merged := by
      rw [heq] at hnodup
      exact fun hu => (List.nodup_append.mp hnodup).2.2 v hu v List.mem_cons_self rfl
    obtain ⟨file', hstep, h'⟩ := h.step hclean hdistinct hmem hmerged hv hnew
    obtain ⟨last, hlast, hdone⟩ := ih (merged ++ [v]) file' (by rw [heq, List.append_assoc]; rfl) h'
    refine ⟨last, ?_, hdone⟩
    rw [List.foldlM_cons, hstep]
    exact hlast

end Loop

/-! ## The result -/

section Result

variable {vars : List Variable} {before file : List Text}

/-- After the loop the properties of the variables have their values. -/
theorem activeValue_of_progress {order : List Variable} (hclean : Clean vars before)
    (horder : ∀ v, v ∈ order ↔ v ∈ vars) (h : Progress vars before order file) {v : Variable}
    (hv : v ∈ vars) : activeValue file v.property = some v.value := by
  set settings := (file.filterMap activeSetting).filter fun s => s.1 = v.property with hsettings
  have hall : ∀ s ∈ settings, s = (v.property, v.value) := by
    intro s hs
    obtain ⟨hmem, hname⟩ := List.mem_filter.mp hs
    obtain ⟨line, hline, hactive⟩ := List.mem_filterMap.mp hmem
    have hs : s = (v.property, s.2) := Prod.ext (of_decide_eq_true hname) rfl
    rw [hs] at hactive
    have hsetting := h.own v ((horder v).mpr hv) line hline (propertyOf_of_activeSetting hactive)
    rw [hsetting, activeSetting_setting (hclean.names v hv), Option.some.injEq] at hactive
    rw [hs, ← hactive]
  have hthere : (v.property, v.value) ∈ settings :=
    List.mem_filter.mpr ⟨List.mem_filterMap.mpr ⟨v.setting, h.set v ((horder v).mpr hv),
      activeSetting_setting (hclean.names v hv)⟩, decide_eq_true rfl⟩
  rw [activeValue, ← hsettings, List.getLast?_eq_some_getLast (List.ne_nil_of_mem hthere),
    hall _ (List.getLast_mem _)]
  rfl

/-- The value of a property that no variable is about depends on the other lines only. -/
theorem activeValue_otherLines {property : Text} (h : ∀ v ∈ vars, v.property ≠ property)
    (file : List Text) :
    activeValue (otherLines vars file) property = activeValue file property := by
  rw [activeValue, activeValue, List.filter_filterMap, List.filter_filterMap, otherLines,
    List.filterMap_filter]
  congr 3
  funext line
  split
  · rfl
  next hline =>
    -- a line that sets the property is about no variable
    rcases hactive : activeSetting line with - | ⟨name, value⟩
    · rfl
    · have hname : name ≠ property := by
        rintro rfl
        refine hline (decide_eq_true fun v hv hv' => h v hv ?_)
        rw [propertyOf_of_activeSetting hactive, Option.some.injEq] at hv'
        exact hv'.symm
      rw [Option.filter_some, if_neg (by simpa using hname)]

/-- The value of a property that the merge should bring about. -/
def mergedValue (vars : List Variable) (before : List Text) (property : Text) : Option Text :=
  (vars.find? fun v => v.property = property).elim (activeValue before property)
    fun v => some v.value

/-- And every property has its merged value. -/
theorem activeValue_eq_mergedValue {order : List Variable} (hclean : Clean vars before)
    (horder : ∀ v, v ∈ order ↔ v ∈ vars) (h : Progress vars before order file) (property : Text) :
    activeValue file property = mergedValue vars before property := by
  rcases hfind : vars.find? (fun v => v.property = property) with - | v <;> rw [mergedValue, hfind]
  · have hother : ∀ v ∈ vars, v.property ≠ property := fun v hv heq =>
      List.find?_eq_none.mp hfind v hv (decide_eq_true heq)
    rw [← activeValue_otherLines hother, h.others, activeValue_otherLines hother]
    rfl
  · have hproperty := List.find?_some hfind
    rw [decide_eq_true_eq] at hproperty
    rw [← hproperty]
    exact activeValue_of_progress hclean horder h (List.mem_of_find?_eq_some hfind)

/-- Every line of the merged file is on one line. -/
theorem Progress.notMem_newline {text : Text} {order : List Variable}
    (h : Progress vars (Text.lines text) order file) (hclean : Clean vars (Text.lines text))
    (horder : ∀ v ∈ order, v ∈ vars) (hvalues : ∀ v ∈ vars, '\n' ∉ v.value) :
    ∀ line ∈ file, '\n' ∉ line := by
  intro line hline
  rcases h.lines line hline with hbefore | ⟨v, hv, rfl⟩
  · exact notMem_of_mem_lines hbefore
  · have hname : '\n' ∉ v.property :=
      notMem_property (hclean.names v (horder v hv)) (by decide) (by decide)
    rw [Variable.setting, List.mem_append, List.mem_cons, not_or, not_or]
    exact ⟨hname, by decide, hvalues v (horder v hv)⟩

end Result

/-- A newline at the end of the file adds no line. -/
theorem lines_newlineAtEof (text : Text) :
    lines (if newlineAtEof text then text else text ++ ['\n']) = lines text := by
  split
  · rfl
  next h =>
    rw [newlineAtEof, Bool.or_eq_true, decide_eq_true_eq, decide_eq_true_eq, not_or] at h
    exact lines_append_newline h.1 h.2

/-- A round of the loop that comes to its end. -/
theorem valid_of_mergeVariable {sed : Sed} {vars : List Variable} {file file' : List Text}
    {v : Variable} (h : mergeVariable sed vars file v.line = some file') :
    v.name.all isNameChar = true ∧ '=' ∉ v.value := by
  have hequals : '=' ∉ v.value := by
    intro hmem
    rw [mergeVariable, indirect_line_of_mem hmem] at h
    cases h
  refine ⟨?_, hequals⟩
  rw [mergeVariable, envVar_line hequals] at h
  by_contra hname
  have hnone : indirect vars (namePrefix ++ v.name) = none := by
    refine if_neg fun hall => hname ?_
    rw [List.all_append, Bool.and_eq_true] at hall
    exact hall.2
  rw [hnone] at h
  cases h

/-- If the loop comes to its end, all names and values are such that their variables are found. -/
theorem valid_of_mergeLines {sed : Sed} {vars : List Variable} {file file' : List Text}
    (h : mergeLines sed vars file = some file') :
    ∀ v ∈ vars, v.name.all isNameChar = true ∧ '=' ∉ v.value := by
  suffices hrest : ∀ (rest : List Variable) (file : List Text),
      rest.foldlM (fun file v => mergeVariable sed vars file v.line) file = some file' →
      ∀ v ∈ rest, v.name.all isNameChar = true ∧ '=' ∉ v.value from hrest vars file h
  intro rest
  induction rest with
  | nil => exact fun _ _ v hv => absurd hv List.not_mem_nil
  | cons first rest ih =>
    intro file h v hv
    rw [List.foldlM_cons] at h
    obtain ⟨next, hnext, hlast⟩ := Option.bind_eq_some_iff.mp h
    rcases List.mem_cons.mp hv with rfl | hv
    · exact valid_of_mergeVariable hnext
    · exact ih next hlast v hv

/-- **The merge does what it should**, in every order of the variables, when nothing of the names,
the values and the file is special to the shell, `grep` or `sed`; and without valid names and
values without an equals sign it does not. -/
theorem merges_of_clean (sed : Sed) (vars : List Variable) (text : Text)
    (hvalues : ∀ v ∈ vars, '@' ∉ v.value ∧ '\n' ∉ v.value)
    (hdistinct : (vars.map Variable.property).Nodup) :
    (Clean vars (lines text) → Merges sed vars text) ∧
      (Merges sed vars text → ∀ v ∈ vars, v.name.all isNameChar = true ∧ '=' ∉ v.value) := by
  refine ⟨fun hclean => ?_, fun hmerges => ?_⟩
  · have hinjective : ∀ v ∈ vars, ∀ v' ∈ vars, v'.property = v.property → v' = v :=
      fun v hv v' hv' heq => List.inj_on_of_nodup_map hdistinct hv' hv heq
    refine ⟨mergedValue vars (lines text), fun order horder => ?_⟩
    obtain ⟨file, hmerge, h⟩ := mergeLines_progress sed hclean hinjective horder
      (horder.nodup_iff.mpr (List.Nodup.of_map _ hdistinct))
    have hmem : ∀ v, v ∈ order ↔ v ∈ vars := fun v => horder.mem_iff
    have hlines : lines (unlines file) = file :=
      lines_unlines (h.notMem_newline hclean (fun v hv => (hmem v).mp hv)
        fun v hv => (hvalues v hv).2)
    refine ⟨unlines file, ?_, ⟨fun v hv => ?_, ?_⟩, fun property => ?_⟩
    · rw [merge, lines_newlineAtEof, hmerge, Option.map_some]
    · rw [hlines]
      exact activeValue_of_progress hclean hmem h hv
    · rw [hlines]
      exact h.others
    · rw [hlines]
      exact activeValue_eq_mergedValue hclean hmem h property
  · obtain ⟨value, hvalue⟩ := hmerges
    obtain ⟨after, hmerge, -⟩ := hvalue vars (List.Perm.refl vars)
    obtain ⟨file, hfile, -⟩ := Option.map_eq_some_iff.mp hmerge
    exact valid_of_mergeLines hfile

/-! ### Samples -/

/-- The first group of the pattern. -/
def Match.mark (m : Match) : Text := if m.hash then ['#'] else []

/-- The whole match. -/
def Match.whole (m : Match) : Text := m.mark ++ m.name ++ '=' :: m.rest

/-- What a digit after a backslash stands for. -/
def Match.group (m : Match) (digit : Char) : Option Text :=
  if digit = '0' then some m.whole
  else if digit = '1' then some m.mark
  else if digit = '2' then some m.name
  else if digit = '3' then some m.rest
  else none

/-- A replacement text as the manual of `sed` begins to describe it: `&` is what was matched, and
so is a backslash with a digit; other characters after a backslash are themselves. -/
def expandPieces (m : Match) : Text → Option Text
  | [] => some []
  | c :: value =>
    if c = '&' then (expandPieces m value).map (m.whole ++ ·)
    else if c = '\\' then
      match value with
      | [] => none
      | d :: value =>
        (if d.isDigit then m.group d else some [d]).bind fun piece =>
          (expandPieces m value).map (piece ++ ·)
    else (expandPieces m value).map (c :: ·)

/-- `sed`, as far as the samples need it. -/
def sampleSed : Sed where
  expand value m := expandPieces m value
  expand_plain {value} m hamp hslash := by
    induction value with
    | nil => rfl
    | cons c value ih =>
      rw [List.mem_cons, not_or] at hamp hslash
      unfold expandPieces
      rw [if_neg (Ne.symm hamp.1), if_neg (Ne.symm hslash.1), ih hamp.2 hslash.2]
      rfl

/-- A variable. -/
def setVariable (name value : String) : Variable := ⟨name.toList, value.toList⟩

/-- A part of `zoo.cfg`, without a newline at its end. -/
def sampleFile : Text :=
  ("# The number of milliseconds of each tick\ntickTime=4000\n" ++
    "#maxClientCnxns=0\nadmin.enableServer=false").toList

/-- Variables for lines that are there, one that is commented out, and one that is new. -/
def sampleVariables : List Variable :=
  [setVariable "tickTime" "2000", setVariable "maxClientCnxns" "60",
   setVariable "admin_enableServer" "true", setVariable "ssl_keyStore_password" "a&b\\1"]

theorem merges_sampleFile :
    Clean sampleVariables (lines sampleFile) ∧ Merges sampleSed sampleVariables sampleFile := by
  have hclean : Clean sampleVariables (lines sampleFile) :=
    ⟨by decide, by decide, by decide, by decide, by decide⟩
  exact ⟨hclean, (merges_of_clean sampleSed sampleVariables sampleFile (by decide)
    (by decide)).1 hclean⟩

/-- What is not merged as it should: a value with an equals sign ends the script; an ampersand in
the value of a property that is there brings back the old line; and with the names `a_b` and `aXb`
the order of `env` decides, because `a.b` finds the line of the other. -/
theorem not_merges_samples :
    ¬ Merges sampleSed [setVariable "extraArgs" "key=value"] sampleFile ∧
      ¬ Merges sampleSed [setVariable "tickTime" "2000&"] sampleFile ∧
      ¬ Merges sampleSed [setVariable "a_b" "1", setVariable "aXb" "2"] sampleFile := by
  refine ⟨?_, ?_, ?_⟩ <;> rintro ⟨value, hvalue⟩
  · obtain ⟨after, hmerge, -⟩ := hvalue _ (.refl _)
    have hnone : merge sampleSed [setVariable "extraArgs" "key=value"] sampleFile = none := by
      decide +kernel
    rw [hnone] at hmerge
    cases hmerge
  · obtain ⟨after, hmerge, hmerged, -⟩ := hvalue _ (.refl _)
    have hactive : ((merge sampleSed [setVariable "tickTime" "2000&"] sampleFile).map fun after =>
        activeValue (lines after) "tickTime".toList) =
        some (some "2000tickTime=4000".toList) := by decide +kernel
    rw [hmerge, Option.map_some, Option.some.injEq] at hactive
    have hwanted := hmerged.values _ List.mem_cons_self
    revert hwanted
    rw [show (setVariable "tickTime" "2000&").property = "tickTime".toList from rfl, hactive]
    decide
  · obtain ⟨after, hmerge, hmerged, -⟩ := hvalue _ (.swap _ _ _)
    have hactive : ((merge sampleSed [setVariable "aXb" "2", setVariable "a_b" "1"] sampleFile).map
        fun after => activeValue (lines after) "a.b".toList) = some none := by decide +kernel
    rw [hmerge, Option.map_some, Option.some.injEq] at hactive
    have hwanted := hmerged.values (setVariable "a_b" "1") (by simp)
    rw [show (setVariable "a_b" "1").property = "a.b".toList by decide, hactive] at hwanted
    cases hwanted

end ConfigMerge

end QubershipZookeeper
