import QubershipZookeeper.Jaas
import Mathlib.Data.List.Nodup

/-!
# The users of a server (`enable_sasl_config` in `docker-entrypoint.sh`)

With an administrator the entrypoint writes a login configuration with the users of the server: the
administrator, the client, and the additional users, whose names and passwords are taken apart
by field splitting. The users of the entry `Server` pass through `echo -en`, those of the entries
for the quorum through a here-document. No value is escaped anywhere.

So what is special to field splitting, pathname expansion, `echo` or a subscript of an array
must not be in a name, and what is special to `echo` or a quoted string must not be in a
password (`Tame`); then the users are read back as they were given
(`configures_of_tame`).
-/

namespace QubershipZookeeper

namespace SaslConfig

open Text

/-! ## The script -/

/-- The variables that the function reads. -/
structure Env where
  adminUsername : Text
  adminPassword : Text
  clientUsername : Text
  clientPassword : Text
  additionalUsers : Text
  /-- `QUORUM_AUTH_ENABLED` is `true` -/
  quorumAuthEnabled : Bool

/-- What the script relies on of the shell. -/
structure Bash where
  /-- pathname expansion of a word -/
  glob : Text → List Text
  glob_plain : ∀ {word : Text}, Avoids ['*', '?', '[', '\\'] word → glob word = [word]
  /-- the text that `echo -e` writes for its argument -/
  escapes : Text → Text
  escapes_nil : escapes [] = []
  escapes_cons : ∀ {c : Char} (text : Text), c ≠ '\\' → escapes (c :: text) = c :: escapes text
  escapes_newline : ∀ text, escapes ('\\' :: 'n' :: text) = '\n' :: escapes text
  /-- the key of a subscript of an associative array; `none` is an error -/
  subscript : Text → Option Text
  subscript_plain : ∀ {name : Text}, name ≠ [] → name ≠ ['@'] →
    Avoids ['*', '[', ']', '$', '`', '"', '\'', '\\'] name → subscript name = some name

variable (bash : Bash)

/-- Field splitting with a separator that is not a blank: one at the end begins no field. -/
def fields (c : Char) (text : Text) : List Text :=
  if (text.splitOn c).getLast? = some [] then (text.splitOn c).dropLast else text.splitOn c

/-- `[:space:]`. -/
def spaces : List Char := [' ', '\t', '\n', '\x0b', '\x0c', '\r']

/-- An argument that `echo` takes for an option. -/
def isEchoOption (text : Text) : Bool :=
  text.head? = some '-' && text.drop 1 ≠ [] && (text.drop 1).all fun c => c ∈ ['n', 'e', 'E']

/-- `$(echo -e "${USER_CREDENTIALS}" | tr -d '[:space:]')`. -/
def stripped (word : Text) : Text :=
  (if isEchoOption word then [] else bash.escapes word).filter fun c => c ∉ spaces

/-- `"user_<name>"="<password>"`. -/
def userOption (name password : Text) : Text :=
  '"' :: ("user_".toList ++ name ++ '"' :: '=' :: '"' :: (password ++ ['"']))

/-- The option with a line break before it, as it is handed to `echo -en`. -/
def userMacro (name password : Text) : Text := "\\n    ".toList ++ userOption name password

/-- The variables of the loop over additional users. -/
structure Users where
  macros : Text
  usernames : Text

/-- One round of the loop over additional users. -/
def addUser (users : Users) (word : Text) : Users :=
  let credentials := fields ':' (stripped bash word)
  let additionalUsername := credentials.getD 0 []
  let additionalPassword := credentials.getD 1 []
  if additionalPassword = [] then users
  else ⟨users.macros ++ userMacro additionalUsername additionalPassword,
    users.usernames ++ ',' :: additionalUsername⟩

/-- The administrator and the client. -/
def mainUsers (env : Env) : Users :=
  if env.clientUsername ≠ [] ∧ env.clientPassword ≠ [] then
    ⟨userMacro env.clientUsername env.clientPassword,
      env.adminUsername ++ ',' :: env.clientUsername⟩
  else ⟨[], env.adminUsername⟩

/-- All users. -/
def allUsers (env : Env) : Users :=
  if env.additionalUsers ≠ [] then
    ((fields ',' env.additionalUsers).flatMap bash.glob).foldl (addUser bash) (mainUsers env)
  else mainUsers env

/-- The loop of `check_usernames_different`; the script ends with status 1 if it is not passed. -/
def passes : List Text → List Text → Bool
  | _, [] => true
  | seen, username :: usernames => (bash.subscript username).elim false fun key =>
    if key ∈ seen then false else passes (key :: seen) usernames

/-- `check_usernames_different`. -/
def checkUsernamesDifferent (usernames : Text) : Bool :=
  passes bash [] ((fields ',' usernames).flatMap bash.glob)

/-- The beginning of every entry. -/
def entryHead (name indent : String) : Text :=
  (name ++ " \x7b\n" ++ indent ++ "org.apache.zookeeper.server.auth.DigestLoginModule required\n" ++
    indent).toList

/-- The argument of `echo -en`. -/
def serverText (env : Env) (macros : Text) : Text :=
  entryHead "Server" "    " ++ userOption env.adminUsername env.adminPassword ++ macros ++
    ";\n\x7d;".toList

/-- The here-document. -/
def quorumText (env : Env) : Text :=
  "\n".toList ++ entryHead "QuorumServer" "       " ++
    userOption env.adminUsername env.adminPassword ++ ";\n\x7d;\n\n".toList ++
    entryHead "QuorumLearner" "       " ++
    "username=".toList ++ '"' :: (env.adminUsername ++ '"' ::
      ("\n       password=".toList ++ '"' :: (env.adminPassword ++ '"' :: ";\n\x7d;\n".toList)))

/-- `enable_sasl_config`: the file it writes; `none` if it ends the script with status 1. -/
def enableSaslConfig (env : Env) : Option Text :=
  if checkUsernamesDifferent bash (allUsers bash env).usernames then
    some (bash.escapes (serverText env (allUsers bash env).macros) ++
      if env.quorumAuthEnabled then quorumText env else [])
  else none

/-! ## What it is for -/

/-- A user with a password. -/
structure User where
  name : Text
  password : Text
  deriving DecidableEq

/-- The user of an item `name:password`. -/
def userOf (item : Text) : User := ⟨(cutAt ':' item).1, (cutAt ':' item).2⟩

/-- The users that are configured. -/
def Env.users (env : Env) : List User :=
  ⟨env.adminUsername, env.adminPassword⟩ ::
    (if env.clientUsername ≠ [] ∧ env.clientPassword ≠ [] then
      [⟨env.clientUsername, env.clientPassword⟩] else []) ++
    ((env.additionalUsers.splitOn ',').map userOf).filter fun user =>
      user.name ≠ [] ∧ user.password ≠ []

/-- The option of a user. -/
def User.key (user : User) : Text := "user_".toList ++ user.name

/-- What the file should be: the entry of the server has the users with their passwords and nothing
else, and the entries for the quorum have the same password of the administrator. -/
structure Configured (env : Env) (file : Text) (entries : List Jaas.Entry) : Prop where
  reads : Jaas.read file = some entries
  users : ∀ key, Jaas.value entries "Server".toList key =
    (env.users.find? fun user => user.key = key).map User.password
  quorum : env.quorumAuthEnabled = true →
    Jaas.value entries "QuorumServer".toList ("user_".toList ++ env.adminUsername) =
        Jaas.value entries "Server".toList ("user_".toList ++ env.adminUsername) ∧
      Jaas.value entries "QuorumLearner".toList "password".toList =
        Jaas.value entries "Server".toList ("user_".toList ++ env.adminUsername)

/-- What the function should do: end the script exactly when two users have the same name, and
write the users otherwise. -/
def Configures (env : Env) : Prop :=
  (enableSaslConfig bash env = none ↔ ¬ (env.users.map User.name).Nodup) ∧
    ∀ file, enableSaslConfig bash env = some file → ∃ entries, Configured env file entries

/-! ## Texts with nothing special in them -/

/-- A name of a user with nothing special in it. -/
structure Name (name : Text) : Prop where
  ne_nil : name ≠ []
  ne_at : name ≠ ['@']
  plain : Avoids [',', '*', '?', '[', ']', '$', '`', '"', '\'', '\\', '\n', '\r'] name

/-- An item of the additional users. Without a password the item is skipped, whatever its name is.
-/
structure Item (item : Text) : Prop where
  word : Avoids ['*', '?', '[', '\\'] item
  user : (userOf item).password ≠ [] →
    Name (userOf item).name ∧ Avoids [':', '"'] (userOf item).password ∧ Avoids spaces item

/-- Nothing is special in the names and the passwords. -/
structure Tame (env : Env) : Prop where
  adminUsername : Name env.adminUsername
  adminPassword : Jaas.Plain env.adminPassword
  client : env.clientUsername ≠ [] → env.clientPassword ≠ [] →
    Name env.clientUsername ∧ Jaas.Plain env.clientPassword
  additional : ∀ item ∈ env.additionalUsers.splitOn ',', Item item

theorem Name.jaas {name : Text} (h : Name name) : Jaas.Plain name := h.plain.mono (by decide)

theorem Name.notMem_comma {name : Text} (h : Name name) : ',' ∉ name := h.plain.notMem (by decide)

variable {bash}

/-- A name is no pattern, so the shell leaves it as it is. -/
theorem Name.glob {name : Text} (h : Name name) : bash.glob name = [name] :=
  bash.glob_plain (h.plain.mono (by decide))

theorem Name.subscript {name : Text} (h : Name name) : bash.subscript name = some name :=
  bash.subscript_plain h.ne_nil h.ne_at (h.plain.mono (by decide))

/-! ## Field splitting -/

/-- `read -a` drops an empty field at the end, and no other. -/
theorem fields_of_ne_nil {c : Char} {text : Text} (h : (text.splitOn c).getLast? ≠ some []) :
    fields c text = text.splitOn c := by
  rw [fields, if_neg h]

theorem fields_subset (c : Char) (text : Text) : fields c text ⊆ text.splitOn c := by
  unfold fields
  split
  · exact List.dropLast_subset _
  · exact fun _ h => h

/-- Words that stand for themselves. -/
theorem flatMap_glob {words : List Text} (h : ∀ word ∈ words, bash.glob word = [word]) :
    words.flatMap bash.glob = words := by
  rw [List.flatMap_congr h, List.flatMap_singleton']

/-- A list that was joined with a separator is split into its members. -/
theorem fields_intercalate {c : Char} {items : List Text} (hc : ∀ item ∈ items, c ∉ item)
    (hne : ∀ item ∈ items, item ≠ []) (hitems : items ≠ []) :
    fields c ([c].intercalate items) = items := by
  have hsplit : ([c].intercalate items).splitOn c = items := List.splitOn_intercalate c hc hitems
  rw [fields_of_ne_nil, hsplit]
  rw [hsplit]
  intro hlast
  exact hne [] (List.mem_of_getLast? hlast) rfl

/-- A loop over fields does the same as a loop over the parts, if an empty part changes nothing. -/
theorem foldl_fields {α : Type} {f : α → Text → α} (h : ∀ a, f a [] = a) (c : Char) (text : Text)
    (a : α) : (fields c text).foldl f a = (text.splitOn c).foldl f a := by
  unfold fields
  split
  · rename_i hlast
    have hparts := List.dropLast_append_getLast? [] hlast
    calc (text.splitOn c).dropLast.foldl f a
        = ((text.splitOn c).dropLast ++ [[]]).foldl f a := by
          rw [List.foldl_append, List.foldl_cons, List.foldl_nil, h]
      _ = (text.splitOn c).foldl f a := by rw [hparts]
  · rfl

/-! ## The users -/

/-- Take a user along. -/
def Users.push (users : Users) (user : User) : Users :=
  ⟨users.macros ++ userMacro user.name user.password, users.usernames ++ ',' :: user.name⟩

/-- The loop over the users collects their lines and their names. -/
theorem foldl_push (users : Users) (more : List User) :
    more.foldl Users.push users =
      ⟨users.macros ++ more.flatMap fun user => userMacro user.name user.password,
        users.usernames ++ more.flatMap fun user => ',' :: user.name⟩ := by
  induction more generalizing users with
  | nil => simp
  | cons user more ih => simp [ih, Users.push]

/-- A text without a backslash passes `echo -e`. -/
theorem escapes_append {text : Text} (h : '\\' ∉ text) (rest : Text) :
    bash.escapes (text ++ rest) = text ++ bash.escapes rest := by
  induction text with
  | nil => rfl
  | cons c text ih =>
    rw [List.mem_cons, not_or] at h
    rw [List.cons_append, bash.escapes_cons _ (Ne.symm h.1), ih h.2, List.cons_append]

/-- `echo -e` changes nothing without a backslash. -/
theorem escapes_of_notMem {text : Text} (h : '\\' ∉ text) : bash.escapes text = text := by
  calc bash.escapes text = bash.escapes (text ++ []) := by rw [List.append_nil]
    _ = text := by rw [escapes_append h, bash.escapes_nil, List.append_nil]

/-- An empty item adds no user. -/
theorem addUser_nil (users : Users) : addUser bash users [] = users := by
  have hstripped : stripped bash [] = [] := by
    rw [stripped, bash.escapes_nil]
    rfl
  rw [addUser, hstripped]
  rfl

/-- An item is split into its name and its password. -/
theorem fields_colon {name password : Text} (hname : ':' ∉ name) (hpassword : ':' ∉ password)
    (hne : password ≠ []) : fields ':' (name ++ ':' :: password) = [name, password] := by
  have hsplit : (name ++ ':' :: password).splitOn ':' = [name, password] := by
    rw [splitOn_append_cons hname, splitOn_of_notMem hpassword]
  rw [fields_of_ne_nil, hsplit]
  rw [hsplit]
  simpa using hne

/-- Without a password there is no second field, with or without a colon at the end. -/
theorem fields_colon_end {name : Text} (h : ':' ∉ name) :
    (fields ':' name).getD 1 [] = [] ∧ (fields ':' (name ++ [':'])).getD 1 [] = [] := by
  constructor
  · rw [fields, splitOn_of_notMem h]
    split <;> rfl
  · rw [fields, splitOn_append_cons h, splitOn_of_notMem List.not_mem_nil]
    rfl

/-- An item without a colon has no password; any other is its name, a colon and the rest. -/
theorem userOf_cases (item : Text) :
    (':' ∉ item ∧ (userOf item).password = []) ∨
      (':' ∉ (userOf item).name ∧ item = (userOf item).name ++ ':' :: (userOf item).password) := by
  by_cases hcolon : ':' ∈ item
  · exact .inr ⟨notMem_cutAt ':' item, (append_cutAt hcolon).symm⟩
  · exact .inl ⟨hcolon, by rw [userOf, cutAt_of_notMem hcolon]⟩

/-- Stripping an item removes its blanks. -/
theorem stripped_eq {item : Text} (h : Item item) (hoption : isEchoOption item = false) :
    stripped bash item = item.filter fun c => c ∉ spaces := by
  have hslash : '\\' ∉ item := h.word.notMem (by decide)
  rw [stripped, hoption, escapes_of_notMem hslash]
  rfl

/-- An option of `echo` is an item without a colon. -/
theorem notMem_of_isEchoOption {item : Text} (h : isEchoOption item = true) : ':' ∉ item := by
  intro hc
  rcases item with - | ⟨first, rest⟩
  · cases hc
  · simp only [isEchoOption, List.head?_cons, List.drop_succ_cons, List.drop_zero, Bool.and_eq_true,
      decide_eq_true_eq, List.all_eq_true, Option.some.injEq] at h
    rcases List.mem_cons.mp hc with hfirst | hrest
    · rw [h.1.1] at hfirst
      exact absurd hfirst (by decide)
    · exact absurd (h.2 ':' hrest) (by decide)

/-- An item without a password is skipped. -/
theorem addUser_skip {item : Text} (h : Item item) (hpassword : (userOf item).password = [])
    (users : Users) : addUser bash users item = users := by
  have hsecond : (fields ':' (stripped bash item)).getD 1 [] = [] := by
    cases hoption : isEchoOption item with
    | true =>
      rw [stripped, hoption]
      rfl
    | false =>
      rw [stripped_eq h hoption]
      rcases userOf_cases item with ⟨hcolon, -⟩ | ⟨hcolon, hitem⟩
      · exact (fields_colon_end fun hc => hcolon (List.mem_filter.mp hc).1).1
      · rw [hitem, hpassword, List.filter_append]
        exact (fields_colon_end fun hc => hcolon (List.mem_filter.mp hc).1).2
  simp only [addUser, hsecond, if_true]

/-- An item with a password is taken along. -/
theorem addUser_push {item : Text} (h : Item item) (hpassword : (userOf item).password ≠ [])
    (users : Users) : addUser bash users item = users.push (userOf item) := by
  obtain ⟨-, hpw, hspace⟩ := h.user hpassword
  rcases userOf_cases item with ⟨-, hnone⟩ | ⟨hcolon, hitem⟩
  · exact absurd hnone hpassword
  · have hmem : ':' ∈ item := by
      rw [hitem]
      simp
    have hoption : isEchoOption item = false := by
      rw [← Bool.not_eq_true]
      exact fun hoption => notMem_of_isEchoOption hoption hmem
    have hfilter : (item.filter fun c => c ∉ spaces) = item :=
      List.filter_eq_self.mpr fun c hc => decide_eq_true (hspace c hc)
    have hfields : fields ':' (stripped bash item) =
      [(userOf item).name, (userOf item).password] := by
      rw [stripped_eq h hoption, hfilter, ← fields_colon hcolon (hpw.notMem (by decide)) hpassword,
        ← hitem]
    simp only [addUser, hfields, List.getD_cons_zero, List.getD_cons_succ, if_neg hpassword]
    rfl

/-- The loop over the items adds the users that have both a name and a password. -/
theorem foldl_addUser {items : List Text} (h : ∀ item ∈ items, Item item) (users : Users) :
    items.foldl (addUser bash) users =
      ((items.map userOf).filter fun user => user.name ≠ [] ∧ user.password ≠ []).foldl
        Users.push users := by
  induction items generalizing users with
  | nil => rfl
  | cons item items ih =>
    have hitem := h item List.mem_cons_self
    rw [List.foldl_cons, ih fun i hi => h i (List.mem_cons_of_mem item hi), List.map_cons]
    by_cases hpassword : (userOf item).password = []
    · rw [addUser_skip hitem hpassword, List.filter_cons_of_neg (by simp [hpassword])]
    · have hname := (hitem.user hpassword).1.ne_nil
      rw [addUser_push hitem hpassword, List.filter_cons_of_pos (by simp [hname, hpassword]),
        List.foldl_cons]

/-- The loops take the users along that are configured. -/
theorem allUsers_eq {env : Env} (h : Tame env) :
    allUsers bash env = env.users.tail.foldl Users.push ⟨[], env.adminUsername⟩ := by
  have hmain : mainUsers env = (if env.clientUsername ≠ [] ∧ env.clientPassword ≠ [] then
      [⟨env.clientUsername, env.clientPassword⟩] else []).foldl Users.push
        ⟨[], env.adminUsername⟩ := by
    unfold mainUsers
    split <;> rfl
  have hglob : (fields ',' env.additionalUsers).flatMap bash.glob =
    fields ',' env.additionalUsers :=
    flatMap_glob fun item hitem =>
      bash.glob_plain (h.additional item (fields_subset ',' env.additionalUsers hitem)).word
  have hloop : allUsers bash env =
      (env.additionalUsers.splitOn ',').foldl (addUser bash) (mainUsers env) := by
    unfold allUsers
    split
    · rw [hglob, foldl_fields addUser_nil]
    · rename_i hnone
      rw [not_not.mp hnone, List.splitOn_nil, List.foldl_cons, List.foldl_nil, addUser_nil]
  rw [hloop, foldl_addUser h.additional, hmain, ← List.foldl_append]
  rfl

/-- In a tame environment all users have plain names and passwords. -/
theorem Tame.users {env : Env} (h : Tame env) {user : User} (huser : user ∈ env.users) :
    Name user.name ∧ Jaas.Plain user.password := by
  rcases List.mem_cons.mp huser with rfl | huser
  · exact ⟨h.adminUsername, h.adminPassword⟩
  rcases List.mem_append.mp huser with huser | huser
  · split at huser
    · rename_i hclient
      rw [List.mem_singleton.mp huser]
      exact h.client hclient.1 hclient.2
    · cases huser
  · obtain ⟨hmem, hfilter⟩ := List.mem_filter.mp huser
    obtain ⟨item, hitem, rfl⟩ := List.mem_map.mp hmem
    have hpassword : (userOf item).password ≠ [] := (of_decide_eq_true hfilter).2
    obtain ⟨hname, hpw, hspace⟩ := (h.additional item hitem).user hpassword
    refine ⟨hname, fun c hc hspecial => ?_⟩
    have hmem : c ∈ item := by
      rcases userOf_cases item with ⟨-, hnone⟩ | ⟨-, hsome⟩
      · exact absurd hnone hpassword
      · rw [hsome]
        exact List.mem_append_right _ (List.mem_cons_of_mem _ hc)
    have hquote := hpw c hc
    have hslash := (h.additional item hitem).word c hmem
    have hbreak := hspace c hmem
    simp only [spaces, List.mem_cons, List.not_mem_nil, or_false,
      not_or] at hspecial hquote hslash hbreak
    tauto

/-! ## The check of the names -/

/-- The check of the names passes exactly if no name comes twice. -/
theorem passes_iff {names : List Text} (h : ∀ name ∈ names, Name name) (seen : List Text) :
    passes bash seen names = true ↔ names.Nodup ∧ ∀ name ∈ names, name ∉ seen := by
  induction names generalizing seen with
  | nil => simp [passes]
  | cons name names ih =>
    rw [passes, (h name List.mem_cons_self).subscript, Option.elim_some]
    by_cases hseen : name ∈ seen
    · simp [hseen]
    · rw [if_neg hseen, ih fun n hn => h n (List.mem_cons_of_mem name hn)]
      simp only [List.mem_cons, not_or, List.nodup_cons, forall_eq_or_imp]
      grind

/-- The list of names is taken apart as it was put together. -/
theorem checkUsernamesDifferent_iff {env : Env} (h : Tame env) :
    checkUsernamesDifferent bash (allUsers bash env).usernames = true ↔
      (env.users.map User.name).Nodup := by
  have hnames : ∀ name ∈ env.users.map User.name, Name name := by
    intro name hname
    obtain ⟨user, huser, rfl⟩ := List.mem_map.mp hname
    exact (h.users huser).1
  have hjoin : (allUsers bash env).usernames = [','].intercalate (env.users.map User.name) := by
    rw [allUsers_eq h, foldl_push]
    exact (intercalate_cons_eq_append ',' env.adminUsername (env.users.tail.map User.name)
      |>.trans (by rw [List.flatMap_map])).symm
  have hfields : fields ',' ([','].intercalate (env.users.map User.name)) =
    env.users.map User.name :=
    fields_intercalate (fun name hname => (hnames name hname).notMem_comma)
      (fun name hname => (hnames name hname).ne_nil) (List.cons_ne_nil _ _)
  rw [checkUsernamesDifferent, hjoin, hfields,
    flatMap_glob fun name hname => (hnames name hname).glob,
    passes_iff hnames]
  simp

/-! ## The file -/

/-- A line break and an option of a user, as they are in the file. -/
def userLine (user : User) : Text := "\n    ".toList ++ userOption user.name user.password

theorem notMem_userOption (user : User) (hname : Name user.name)
    (hpassword : Jaas.Plain user.password) : '\\' ∉ userOption user.name user.password := by
  have hkey : '\\' ∉ "user_".toList := by decide
  have hslash {text : Text} (h : Jaas.Plain text) : '\\' ∉ text := h.notMem (by decide)
  simp only [userOption, List.mem_cons, List.mem_append, hkey, hslash hname.jaas, hslash hpassword]
  decide

/-- `echo` turns what stands between users into line breaks. -/
theorem escapes_macros {users : List User}
    (h : ∀ user ∈ users, Name user.name ∧ Jaas.Plain user.password) (rest : Text) :
    bash.escapes ((users.flatMap fun user => userMacro user.name user.password) ++ rest) =
      users.flatMap userLine ++ bash.escapes rest := by
  induction users with
  | nil => rfl
  | cons user users ih =>
    obtain ⟨hname, hpassword⟩ := h user List.mem_cons_self
    have hmacro (t : Text) : bash.escapes (userMacro user.name user.password ++ t) =
        userLine user ++ bash.escapes t := by
      have hspaces : '\\' ∉ "    ".toList ++ userOption user.name user.password := by
        simpa using notMem_userOption user hname hpassword
      calc bash.escapes (userMacro user.name user.password ++ t)
          = '\n' :: bash.escapes (("    ".toList ++ userOption user.name user.password) ++ t) :=
            bash.escapes_newline _
        _ = userLine user ++ bash.escapes t := by
          rw [escapes_append hspaces]
          rfl
    rw [List.flatMap_cons, List.flatMap_cons, List.append_assoc, hmacro,
      ih fun u hu => h u (List.mem_cons_of_mem user hu), List.append_assoc]

/-- The entry of the server as it is in the file. -/
theorem escapes_serverText {env : Env} (h : Tame env) :
    bash.escapes (serverText env (allUsers bash env).macros) =
      entryHead "Server" "    " ++ (userOption env.adminUsername env.adminPassword ++
        (env.users.tail.flatMap userLine ++ ";\n\x7d;".toList)) := by
  have hhead : '\\' ∉ entryHead "Server" "    " := by decide
  have hadmin : '\\' ∉ userOption env.adminUsername env.adminPassword :=
    notMem_userOption ⟨env.adminUsername, env.adminPassword⟩ h.adminUsername h.adminPassword
  have hmore : ∀ user ∈ env.users.tail, Name user.name ∧ Jaas.Plain user.password :=
    fun user huser => h.users (List.mem_of_mem_tail huser)
  have hend : '\\' ∉ ";\n\x7d;".toList := by simp
  rw [serverText, allUsers_eq h, foldl_push, List.nil_append]
  simp only [List.append_assoc]
  rw [escapes_append hhead, escapes_append hadmin, escapes_macros hmore, escapes_of_notMem hend]

/-! ## The file is read back -/

/-- The login module of every entry. -/
def loginModule : Text := "org.apache.zookeeper.server.auth.DigestLoginModule".toList

/-- The tokens of an entry of the file. -/
def entryOf (name : String) (options : List Jaas.Token) : List Jaas.Token :=
  Jaas.entryTokens name.toList loginModule "required".toList options

/-- A user's option is read back with its name and its password. -/
theorem scan_userOption (user : User) (hname : Name user.name)
    (hpassword : Jaas.Plain user.password)
    (rest : Text) : Jaas.scan .gap (userOption user.name user.password ++ rest) =
      Jaas.optionTokens (.quoted user.key) user.password ++ Jaas.scan .gap rest := by
  have hkey : Jaas.Plain user.key := Avoids.append (by decide) hname.jaas
  have hequals : Jaas.pass .gap ['='] = (.gap, [.symbol '=']) := by decide
  have htext : userOption user.name user.password ++ rest =
      '"' :: (user.key ++ '"' :: (['='] ++ '"' :: (user.password ++ '"' :: rest))) := by
    simp only [userOption, User.key, List.cons_append, List.append_assoc, List.nil_append]
  rw [htext, Jaas.scan_string hkey, Jaas.scan_of_pass hequals, Jaas.scan_string hpassword]
  rfl

/-- The lines of all users are read back in their order. -/
theorem scan_userLines {users : List User}
    (h : ∀ user ∈ users, Name user.name ∧ Jaas.Plain user.password) (rest : Text) :
    Jaas.scan .gap (users.flatMap userLine ++ rest) =
      users.flatMap (fun user => Jaas.optionTokens (.quoted user.key) user.password) ++
        Jaas.scan .gap rest := by
  have hbreak : Jaas.pass .gap "\n    ".toList = (.gap, []) := by decide
  induction users with
  | nil => rfl
  | cons user users ih =>
    obtain ⟨hname, hpassword⟩ := h user List.mem_cons_self
    rw [List.flatMap_cons, List.flatMap_cons, List.append_assoc, userLine, List.append_assoc,
      Jaas.scan_of_pass hbreak, List.nil_append, scan_userOption user hname hpassword,
      ih fun u hu => h u (List.mem_cons_of_mem user hu),
      List.append_assoc]

/-- The entry of the server. -/
theorem scan_server {env : Env} (h : Tame env) (rest : Text) :
    Jaas.scan .gap (bash.escapes (serverText env (allUsers bash env).macros) ++ rest) =
      entryOf "Server" (env.users.flatMap fun user =>
        Jaas.optionTokens (.quoted user.key) user.password) ++ Jaas.scan .gap rest := by
  have hhead : Jaas.pass .gap (entryHead "Server" "    ") =
      (.gap, [.word "Server".toList, .symbol '\x7b', .word loginModule,
        .word "required".toList]) := by
    decide +kernel
  have hend : Jaas.pass .gap ";\n\x7d;".toList =
      (.gap, [.symbol ';', .symbol '\x7d', .symbol ';']) := by decide
  have hmore : ∀ user ∈ env.users.tail, Name user.name ∧ Jaas.Plain user.password :=
    fun user huser => h.users (List.mem_of_mem_tail huser)
  rw [escapes_serverText h]
  simp only [List.append_assoc]
  rw [Jaas.scan_of_pass hhead,
    scan_userOption ⟨env.adminUsername, env.adminPassword⟩ h.adminUsername h.adminPassword,
    scan_userLines hmore, Jaas.scan_of_pass hend]
  simp only [entryOf, Jaas.entryTokens, Env.users, List.cons_append, List.tail_cons,
    List.flatMap_cons, List.append_assoc]

theorem pass_entryHead_quorum :
    Jaas.pass .gap ("\n".toList ++ entryHead "QuorumServer" "       ") =
        (.gap, [.word "QuorumServer".toList, .symbol '\x7b', .word loginModule,
          .word "required".toList]) ∧
      Jaas.pass .gap (";\n\x7d;\n\n".toList ++ entryHead "QuorumLearner" "       " ++
          "username=".toList) =
        (.gap, [.symbol ';', .symbol '\x7d', .symbol ';', .word "QuorumLearner".toList,
          .symbol '\x7b', .word loginModule, .word "required".toList, .word "username".toList,
          .symbol '=']) ∧
      Jaas.pass .gap "\n       password=".toList =
        (.gap, [.word "password".toList, .symbol '=']) := by
  decide +kernel

/-- The entries for the quorum. -/
theorem scan_quorum {env : Env} (h : Tame env) :
    Jaas.scan .gap (quorumText env) =
      entryOf "QuorumServer" (Jaas.optionTokens (.quoted ("user_".toList ++ env.adminUsername))
          env.adminPassword) ++
        entryOf "QuorumLearner" (Jaas.optionTokens (.word "username".toList) env.adminUsername ++
          Jaas.optionTokens (.word "password".toList) env.adminPassword) := by
  obtain ⟨hserver, hlearner, hpassword⟩ := pass_entryHead_quorum
  have hend : Jaas.scan .gap ";\n\x7d;\n".toList = [.symbol ';', .symbol '\x7d', .symbol ';'] := by
    decide
  have hadmin := scan_userOption ⟨env.adminUsername, env.adminPassword⟩ h.adminUsername
    h.adminPassword
  have htext : quorumText env = ("\n".toList ++ entryHead "QuorumServer" "       ") ++
      (userOption env.adminUsername env.adminPassword ++
        ((";\n\x7d;\n\n".toList ++ entryHead "QuorumLearner" "       " ++ "username=".toList) ++
          '"' :: (env.adminUsername ++ '"' :: ("\n       password=".toList ++
            '"' :: (env.adminPassword ++ '"' :: ";\n\x7d;\n".toList))))) := by
    simp only [quorumText, List.append_assoc]
  rw [htext, Jaas.scan_of_pass hserver, hadmin, Jaas.scan_of_pass hlearner,
    Jaas.scan_string h.adminUsername.jaas, Jaas.scan_of_pass hpassword,
    Jaas.scan_string h.adminPassword, hend]
  rfl

/-- The entry of the server: its tokens, and what it says. -/
def serverEntry (env : Env) : List Jaas.Token × Jaas.Entry :=
  (entryOf "Server" (env.users.flatMap fun user =>
      Jaas.optionTokens (.quoted user.key) user.password),
    ⟨"Server".toList, env.users.map fun user => (user.key, user.password)⟩)

/-- The entries for the quorum. -/
def quorumEntries (env : Env) : List (List Jaas.Token × Jaas.Entry) :=
  [(entryOf "QuorumServer" (Jaas.optionTokens (.quoted ("user_".toList ++ env.adminUsername))
      env.adminPassword),
    ⟨"QuorumServer".toList, [("user_".toList ++ env.adminUsername, env.adminPassword)]⟩),
   (entryOf "QuorumLearner" (Jaas.optionTokens (.word "username".toList) env.adminUsername ++
      Jaas.optionTokens (.word "password".toList) env.adminPassword),
    ⟨"QuorumLearner".toList,
      [("username".toList, env.adminUsername), ("password".toList, env.adminPassword)]⟩)]

/-- The entries of the file. -/
def fileEntries (env : Env) : List (List Jaas.Token × Jaas.Entry) :=
  serverEntry env :: if env.quorumAuthEnabled then quorumEntries env else []

/-- The entry of the servers is parsed as it was meant. -/
theorem readEntry_serverEntry (env : Env) (rest : List Jaas.Token) :
    Jaas.readEntry ((serverEntry env).1 ++ rest) = some ((serverEntry env).2, rest) := by
  refine Jaas.readEntry_entry _ _ _ rest fun rest => ?_
  have := Jaas.readOptions_options (env.users.map fun user => (user.key, user.password)) rest
  rwa [List.flatMap_map] at this

/-- All entries of the file are. -/
theorem readEntry_fileEntries {env : Env} {entry : List Jaas.Token × Jaas.Entry}
    (h : entry ∈ fileEntries env) :
    entry.1 ≠ [] ∧ ∀ rest, Jaas.readEntry (entry.1 ++ rest) = some (entry.2, rest) := by
  rcases List.mem_cons.mp h with rfl | h
  · exact ⟨List.cons_ne_nil _ _, readEntry_serverEntry env⟩
  · split at h
    · rcases List.mem_cons.mp h with rfl | h
      · exact ⟨List.cons_ne_nil _ _, fun rest => rfl⟩
      · rw [List.mem_singleton.mp h]
        exact ⟨List.cons_ne_nil _ _, fun rest => rfl⟩
    · cases h

/-- The file is read back. -/
theorem read_file {env : Env} (h : Tame env) :
    Jaas.read (bash.escapes (serverText env (allUsers bash env).macros) ++
      if env.quorumAuthEnabled then quorumText env else []) =
        some ((fileEntries env).map Prod.snd) := by
  refine Jaas.read_of_chunks ?_ fun entry hentry => readEntry_fileEntries hentry
  rw [Jaas.tokens, scan_server h, fileEntries, List.flatMap_cons]
  split
  · rw [scan_quorum h]
    rfl
  · rfl

/-! ## The users are read back -/

/-- The options of the entry of the server. -/
theorem value_server {env : Env} (hnodup : (env.users.map User.name).Nodup) (key : Text) :
    Jaas.value ((fileEntries env).map Prod.snd) "Server".toList key =
      (env.users.find? fun user => user.key = key).map User.password := by
  have hkeys : ((serverEntry env).2.options.map Prod.fst).Nodup := by
    have hmap : (serverEntry env).2.options.map Prod.fst =
        (env.users.map User.name).map fun name => "user_".toList ++ name := by
      simp [serverEntry, User.key]
    rw [hmap]
    exact List.Nodup.map (fun name other => List.append_cancel_left) hnodup
  calc Jaas.value ((fileEntries env).map Prod.snd) "Server".toList key
      = (serverEntry env).2.value key := rfl
    _ = (env.users.find? fun user => user.key = key).map User.password := by
      rw [Jaas.Entry.value_of_nodup hkeys, serverEntry, List.find?_map, Option.map_map]
      rfl

/-- With different names the file has what it should have. -/
theorem configured_file {env : Env} (h : Tame env) (hnodup : (env.users.map User.name).Nodup) :
    Configured env (bash.escapes (serverText env (allUsers bash env).macros) ++
      if env.quorumAuthEnabled then quorumText env else []) ((fileEntries env).map Prod.snd) where
  reads := read_file h
  users key := value_server hnodup key
  quorum hquorum := by
    have hserver : Jaas.value ((fileEntries env).map Prod.snd) "Server".toList
        ("user_".toList ++ env.adminUsername) = some env.adminPassword := by
      rw [value_server hnodup, Env.users, List.cons_append,
        List.find?_cons_of_pos (by simp [User.key])]
      rfl
    have hentries : (fileEntries env).map Prod.snd =
        (serverEntry env).2 :: (quorumEntries env).map Prod.snd := by
      rw [fileEntries, if_pos hquorum]
      rfl
    rw [hserver, hentries]
    constructor
    · calc Jaas.value ((serverEntry env).2 :: (quorumEntries env).map Prod.snd)
            "QuorumServer".toList ("user_".toList ++ env.adminUsername)
          = Jaas.Entry.value ⟨"QuorumServer".toList,
              [("user_".toList ++ env.adminUsername, env.adminPassword)]⟩
              ("user_".toList ++ env.adminUsername) := rfl
        _ = some env.adminPassword := by simp [Jaas.Entry.value]
    · rfl

/-- **The users are configured** as they were given, if nothing in them is special. -/
theorem configures_of_tame {env : Env} (h : Tame env) : Configures bash env := by
  have hcheck : checkUsernamesDifferent bash (allUsers bash env).usernames = true ↔
      (env.users.map User.name).Nodup := checkUsernamesDifferent_iff h
  unfold Configures enableSaslConfig
  refine ⟨?_, fun file hfile => ?_⟩
  · rw [← hcheck]
    split <;> simp_all
  · split at hfile
    · rename_i hpassed
      rw [← Option.some.inj hfile]
      exact ⟨_, configured_file h (hcheck.mp hpassed)⟩
    · cases hfile

/-- `echo -e` without the escapes for a character with a code. -/
def echoEscapes : Text → Text
  | [] => []
  | '\\' :: 'n' :: text => '\n' :: echoEscapes text
  | '\\' :: 't' :: text => '\t' :: echoEscapes text
  | '\\' :: 'r' :: text => '\r' :: echoEscapes text
  | '\\' :: '\\' :: text => '\\' :: echoEscapes text
  | '\\' :: 'c' :: _ => []
  | c :: text => c :: echoEscapes text

/-- A shell in a directory where no pattern matches. -/
def sampleBash : Bash where
  glob word := [word]
  glob_plain _ := rfl
  escapes := echoEscapes
  escapes_nil := rfl
  escapes_cons text hc := by
    rw [echoEscapes] <;> exact fun _ h _ => hc h
  escapes_newline _ := by rw [echoEscapes]
  subscript name := if name = [] then none else some name
  subscript_plain hne _ _ := if_neg hne

/-- An administrator, a client, and two additional users of whom one has no password. -/
def sampleEnv : Env where
  adminUsername := "admin".toList
  adminPassword := "s3cret, with: signs".toList
  clientUsername := "client".toList
  clientPassword := "pass$word*".toList
  additionalUsers := "app:one,guest,report:two".toList
  quorumAuthEnabled := true

theorem tame_sampleEnv : Tame sampleEnv where
  adminUsername := ⟨by decide, by decide, by decide⟩
  adminPassword := by decide
  client _ _ := ⟨⟨by decide, by decide, by decide⟩, by decide⟩
  additional := by
    have hitems : sampleEnv.additionalUsers.splitOn ',' =
        ["app:one".toList, "guest".toList, "report:two".toList] := by decide
    rw [hitems]
    simp only [List.forall_mem_cons]
    refine ⟨⟨by decide, fun _ => ⟨⟨by decide, by decide, by decide⟩, by decide, by decide⟩⟩,
      ⟨by decide, fun h => absurd (by decide) h⟩,
      ⟨by decide, fun _ => ⟨⟨by decide, by decide, by decide⟩, by decide, by decide⟩⟩, nofun⟩

theorem configures_sampleEnv :
    Configures sampleBash sampleEnv ∧ (enableSaslConfig sampleBash sampleEnv).isSome :=
  ⟨configures_of_tame tame_sampleEnv, by decide +kernel⟩

/-- A file from which another password is read than the one that was given. -/
theorem not_configures_of_value {env : Env} (key : Text)
    (hfile : (enableSaslConfig bash env).isSome)
    (hvalue : ((enableSaslConfig bash env).bind Jaas.read).map
        (fun entries => Jaas.value entries "Server".toList key) ≠
      some ((env.users.find? fun user => user.key = key).map User.password)) :
    ¬ Configures bash env := by
  intro h
  obtain ⟨file, hsome⟩ := Option.isSome_iff_exists.mp hfile
  obtain ⟨entries, hconfigured⟩ := h.2 file hsome
  rw [hsome, Option.bind_some, hconfigured.reads, Option.map_some, hconfigured.users] at hvalue
  exact hvalue rfl

/-- A client that is not there, and a password of the administrator that needs no escape. -/
def plainEnv : Env where
  adminUsername := "admin".toList
  adminPassword := "secret".toList
  clientUsername := []
  clientPassword := []
  additionalUsers := []
  quorumAuthEnabled := true

/-- A password with a colon is cut. -/
def colonEnv : Env := { plainEnv with additionalUsers := "app:pa:ss".toList }

/-- `echo` takes a backslash away in the entry of the server, and in no other entry. -/
def backslashEnv : Env := { plainEnv with adminPassword := "pa\\\\ss".toList }

/-- A user without a name. -/
def namelessEnv : Env := { plainEnv with additionalUsers := ":secret".toList }

/-- A name with a comma is two names for the check. -/
def commaEnv : Env :=
  { plainEnv with
    adminUsername := "admin,client".toList
    clientUsername := "client".toList
    clientPassword := "secret".toList }

theorem not_configures_samples : ¬ Configures sampleBash colonEnv ∧
    ¬ Configures sampleBash backslashEnv ∧ ¬ Configures sampleBash namelessEnv ∧
      ¬ Configures sampleBash commaEnv := by
  refine ⟨?_, ?_, ?_, ?_⟩
  · exact not_configures_of_value "user_app".toList (by decide +kernel) (by decide +kernel)
  · exact not_configures_of_value "user_admin".toList (by decide +kernel) (by decide +kernel)
  · exact not_configures_of_value "user_".toList (by decide +kernel) (by decide +kernel)
  · intro h
    have hexit : enableSaslConfig sampleBash commaEnv = none := by decide +kernel
    exact h.1.mp hexit (by decide +kernel)

end SaslConfig

end QubershipZookeeper
