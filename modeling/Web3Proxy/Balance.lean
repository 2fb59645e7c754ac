import Mathlib.Algebra.BigOperators.Ring
import Mathlib.Data.List.Dedup
import Mathlib.Data.Rat.Defs
import Mathlib.Tactic.Ring

/-! `Balance::try_from_db`: one aggregate query over a chain of `LEFT JOIN`s from `user`, and the
decode of the one row it returns. The query sums columns of several joined tables in one group,
so a row of one table is counted once for every row the other joins pair it with; and the group
of an unknown user is empty but still makes a row, whose NULL `user_id` fails the decode. -/

namespace Web3Proxy

/-- `sea_orm::prelude::Decimal`, by its value: the code only adds and subtracts decimals, and
MySQL sums them, exactly. -/
abbrev Decimal := ℚ

/-! ## The tables, by the columns the query reads -/

structure User where
  id : UInt64
  userTierId : UInt64
  deriving DecidableEq, Repr

/-- A row of `admin_increase_balance_receipt`, `increase_on_chain_balance_receipt` or
`stripe_increase_balance_receipt`. -/
structure Receipt where
  depositToUserId : UInt64
  amount : Decimal
  deriving DecidableEq

structure Referee where
  userId : UInt64
  usedReferralCode : UInt64
  oneTimeBonusAppliedForReferee : Decimal
  creditsAppliedForReferrer : Decimal
  deriving DecidableEq

structure Referrer where
  id : UInt64
  userId : UInt64
  deriving DecidableEq

structure RpcKey where
  id : UInt64
  userId : UInt64
  deriving DecidableEq

/-- A row of `rpc_accounting_v2`. -/
structure Accounting where
  rpcKeyId : UInt64
  sumCreditsUsed : Decimal
  sumInclFreeCreditsUsed : Decimal
  deriving DecidableEq

structure UserTier where
  id : UInt64
  deriving DecidableEq

/-- The tables the query reads; `user.id` is the primary key of `user`. -/
structure Db where
  user : List User
  adminReceipt : List Receipt
  chainReceipt : List Receipt
  stripeReceipt : List Receipt
  referee : List Referee
  referrer : List Referrer
  rpcKey : List RpcKey
  accounting : List Accounting
  userTier : List UserTier
  userKey : (user.map User.id).Nodup

/-! ## The query -/

/-- What MySQL does for `LEFT JOIN right ON cond` at one row of the left side: the rows of `right`
it matches, or one row of NULLs when it matches none. -/
def leftJoin {β : Type} (right : List β) (cond : β → Bool) : List (Option β) :=
  match right.filter cond with
  | [] => [none]
  | rows => rows.map some

structure ReferrerBonus where
  userId : UInt64
  totalBonus : Decimal
  deriving DecidableEq

/-- `referrer JOIN referee ON referrer.id = referee.used_referral_code`, by the two columns the
derived table `referrer_bonus` reads. -/
def referrerReferees (db : Db) : List (UInt64 × Decimal) :=
  db.referrer.flatMap fun referrer =>
    (db.referee.filter fun referee => referrer.id == referee.usedReferralCode).map fun referee =>
      (referrer.userId, referee.creditsAppliedForReferrer)

/-- The derived table `referrer_bonus`: `SELECT referrer.user_id,
SUM(referee.credits_applied_for_referrer) AS total_bonus ... GROUP BY referrer.user_id`. -/
def referrerBonus (db : Db) : List ReferrerBonus :=
  ((referrerReferees db).map Prod.fst).dedup.map fun userId =>
    ⟨userId, (((referrerReferees db).filter fun row => row.1 == userId).map Prod.snd).sum⟩

/-- A row of the join chain, before `WHERE`. -/
structure JoinedRow where
  user : User
  adminReceipt : Option Receipt
  chainReceipt : Option Receipt
  stripeReceipt : Option Receipt
  referee : Option Referee
  referrerBonus : Option ReferrerBonus
  rpcKey : Option RpcKey
  accounting : Option Accounting
  userTier : Option UserTier

section Joins

variable (db : Db) (user : User)

def adminJoin := leftJoin db.adminReceipt fun r => user.id == r.depositToUserId
def chainJoin := leftJoin db.chainReceipt fun r => user.id == r.depositToUserId
def stripeJoin := leftJoin db.stripeReceipt fun r => user.id == r.depositToUserId
def refereeJoin := leftJoin db.referee fun r => user.id == r.userId
def bonusJoin := leftJoin (referrerBonus db) fun b => user.id == b.userId
def rpcKeyJoin := leftJoin db.rpcKey fun k => user.id == k.userId

/-- `LEFT JOIN rpc_accounting_v2 ON rpc_key.id = accounting.rpc_key_id`: a NULL `rpc_key`
matches nothing. -/
def accountingJoin (rpcKey : Option RpcKey) :=
  leftJoin db.accounting fun a => rpcKey.any fun k => k.id == a.rpcKeyId

def userTierJoin := leftJoin db.userTier fun t => user.userTierId == t.id

/-- The rows the `LEFT JOIN` chain makes of one `user` row, joined in the query's order. -/
def joinUser : List JoinedRow :=
  (adminJoin db user).flatMap fun adminReceipt =>
  (chainJoin db user).flatMap fun chainReceipt =>
  (stripeJoin db user).flatMap fun stripeReceipt =>
  (refereeJoin db user).flatMap fun referee =>
  (bonusJoin db user).flatMap fun referrerBonus =>
  (rpcKeyJoin db user).flatMap fun rpcKey =>
  (accountingJoin db rpcKey).flatMap fun accounting =>
  (userTierJoin db user).map fun userTier =>
  ⟨user, adminReceipt, chainReceipt, stripeReceipt, referee, referrerBonus, rpcKey, accounting,
    userTier⟩

end Joins

/-- `FROM user LEFT JOIN ... WHERE user.id = {user_id}`. -/
def balanceRows (db : Db) (userId : UInt64) : List JoinedRow :=
  (db.user.flatMap (joinUser db)).filter fun row => row.user.id == userId

/-- What MySQL does for `SUM(x)` over a group: NULL when no row of it has a value. -/
def sqlSum (xs : List (Option Decimal)) : Option Decimal :=
  match xs.filterMap id with
  | [] => none
  | ys => some ys.sum

/-- `COALESCE(SUM(column), 0)` over the group. -/
def columnSum (rows : List JoinedRow) (column : JoinedRow → Option Decimal) : Decimal :=
  (sqlSum (rows.map column)).getD 0

/-- The one row of the aggregate query; any of its columns may be NULL. -/
structure BalanceRow where
  userId : Option UInt64
  totalDeposits : Option Decimal
  totalSpentPaidCredits : Option Decimal
  totalSpent : Option Decimal
  deriving DecidableEq

/-- The `SELECT` list over the group. With aggregates and no `GROUP BY`, all the rows make one
group, also when there are none; a column outside an aggregate takes its value at a row of the
group, the first here, and is NULL when the group is empty. -/
def balanceQuery (db : Db) (userId : UInt64) : List BalanceRow :=
  let rows := balanceRows db userId
  [{ userId := rows.head?.map (·.user.id)
     totalDeposits := some (columnSum rows (·.adminReceipt.map (·.amount)) +
       columnSum rows (·.chainReceipt.map (·.amount)) +
       columnSum rows (·.stripeReceipt.map (·.amount)) +
       columnSum rows (·.referee.map (·.oneTimeBonusAppliedForReferee)) +
       ((rows.head?.bind (·.referrerBonus)).map (·.totalBonus)).getD 0)
     totalSpentPaidCredits := some (columnSum rows (·.accounting.map (·.sumCreditsUsed)))
     totalSpent := some (columnSum rows (·.accounting.map (·.sumInclFreeCreditsUsed))) }]

/-! ## The decode -/

/-- Modelled from sea-orm, which is not among the sources: the derived `FromQueryResult` fails on
a NULL read into a field that is not an `Option`, naming the column. The `?` of `try_from_db`
wraps it into its own error. -/
inductive DbErr
  | nullValue (column : String)
  deriving DecidableEq, Repr

def getColumn {α : Type} (column : String) : Option α → Except DbErr α
  | some v => .ok v
  | none => .error (.nullValue column)

structure Balance where
  userId : UInt64
  totalSpentPaidCredits : Decimal
  totalSpent : Decimal
  totalDeposits : Decimal
  deriving DecidableEq

namespace Balance

def remaining (b : Balance) : Decimal := b.totalDeposits - b.totalSpentPaidCredits

/-- The derived `FromQueryResult`: the fields in their order. -/
def fromQueryResult (row : BalanceRow) : Except DbErr Balance := do
  let userId ← getColumn "user_id" row.userId
  let totalSpentPaidCredits ← getColumn "total_spent_paid_credits" row.totalSpentPaidCredits
  let totalSpent ← getColumn "total_spent" row.totalSpent
  let totalDeposits ← getColumn "total_deposits" row.totalDeposits
  return ⟨userId, totalSpentPaidCredits, totalSpent, totalDeposits⟩

/-- `.one(db_conn)`: the first row of the result, decoded. -/
def one (rows : List BalanceRow) : Except DbErr (Option Balance) :=
  match rows.head? with
  | none => .ok none
  | some row => some <$> fromQueryResult row

def tryFromDb (db : Db) (userId : UInt64) : Except DbErr (Option Balance) :=
  if userId = 0 then .ok none
  else do
    match ← one (balanceQuery db userId) with
    | none => return none
    | some x => return some x

end Balance

/-! ## The join, row by row -/

theorem sum_flatMap {α β M : Type} [AddCommMonoid M] (l : List α) (g : α → List β)
    (f : β → M) :
    ((l.flatMap g).map f).sum = (l.map fun a => ((g a).map f).sum).sum := by
  induction l with
  | nil => rfl
  | cons a l ih => simp [List.flatMap_cons, ih]

theorem length_filter_key_le_one {α β : Type} [DecidableEq β] {f : α → β} {l : List α}
    (hl : (l.map f).Nodup) (k : β) : (l.filter fun y => k == f y).length ≤ 1 := by
  induction l with
  | nil => simp
  | cons x l ih =>
    obtain ⟨hx, hl⟩ := List.nodup_cons.mp hl
    by_cases hk : k = f x
    · subst hk
      have hrest : l.filter (fun y => f x == f y) = [] := List.filter_eq_nil_iff.mpr fun y hy h =>
        hx (beq_iff_eq.mp h ▸ List.mem_map_of_mem f hy)
      simp [List.filter_cons, hrest]
    · simpa [List.filter_cons, hk] using ih hl

theorem find?_beq (l : List UInt64) (a : UInt64) :
    l.find? (a == ·) = if a ∈ l then some a else none := by
  induction l with
  | nil => rfl
  | cons x l ih => by_cases h : a = x <;> simp [List.find?_cons, h, ih]

section Joins

variable {β : Type} {right : List β} {cond : β → Bool}

@[simp] theorem leftJoin_ne_nil : leftJoin right cond ≠ [] := by
  unfold leftJoin; split <;> simp_all

@[simp] theorem exists_mem_leftJoin : ∃ o, o ∈ leftJoin right cond :=
  List.exists_mem_of_ne_nil _ leftJoin_ne_nil

theorem sum_leftJoin (g : Option β → Decimal) (hg : g none = 0) :
    ((leftJoin right cond).map g).sum = ((right.filter cond).map (g ∘ some)).sum := by
  unfold leftJoin; split <;> rename_i h <;> simp [h, hg]

theorem leftJoin_of_length_le_one (h : (right.filter cond).length ≤ 1) :
    leftJoin right cond = [right.find? cond] := by
  rw [← List.filter_head?]
  unfold leftJoin
  match hf : right.filter cond, h with
  | [], _ => rfl
  | [b], _ => rfl

end Joins

theorem sum_filterMap_id (xs : List (Option Decimal)) :
    (xs.filterMap id).sum = (xs.map (·.getD 0)).sum := by
  induction xs with
  | nil => rfl
  | cons x xs ih => cases x <;> simp [ih]

theorem columnSum_eq (rows : List JoinedRow) (column : JoinedRow → Option Decimal) :
    columnSum rows column = (rows.map fun r => (column r).getD 0).sum := by
  have h : (rows.map fun r => (column r).getD 0).sum = ((rows.map column).filterMap id).sum := by
    rw [sum_filterMap_id, List.map_map]; rfl
  unfold columnSum sqlSum
  rw [h]
  cases (rows.map column).filterMap id <;> rfl

section User

variable (db : Db) (user : User)

theorem mem_joinUser :
    ∀ row ∈ joinUser db user, row.user = user ∧ row.referrerBonus ∈ bonusJoin db user := by
  simp only [joinUser, List.mem_flatMap, List.mem_map]
  rintro _ ⟨_, _, _, _, _, _, _, _, b, hb, _, _, _, _, _, _, rfl⟩
  exact ⟨rfl, hb⟩

@[simp] theorem joinUser_ne_nil : joinUser db user ≠ [] := by
  simp [joinUser, adminJoin, chainJoin, stripeJoin, refereeJoin, bonusJoin, rpcKeyJoin,
    accountingJoin, userTierJoin, List.flatMap_eq_nil_iff]

theorem bonusJoin_eq :
    bonusJoin db user = [(referrerBonus db).find? fun b => user.id == b.userId] := by
  have hkey : ((referrerBonus db).map (·.userId)).Nodup := by
    simpa [referrerBonus, Function.comp_def] using List.nodup_dedup _
  exact leftJoin_of_length_le_one (length_filter_key_le_one hkey user.id)

def referralCredits : Decimal :=
  ((db.referrer.filter fun r => r.userId == user.id).map fun r =>
    ((db.referee.filter fun e => r.id == e.usedReferralCode).map
      (·.creditsAppliedForReferrer)).sum).sum

theorem sum_referrerReferees (uid : UInt64) (referrers : List Referrer) :
    (((referrers.flatMap fun referrer =>
        (db.referee.filter fun referee => referrer.id == referee.usedReferralCode).map
          fun referee => (referrer.userId, referee.creditsAppliedForReferrer)).filter
        fun row => row.1 == uid).map Prod.snd).sum =
      ((referrers.filter fun r => r.userId == uid).map fun r =>
        ((db.referee.filter fun e => r.id == e.usedReferralCode).map
          (·.creditsAppliedForReferrer)).sum).sum := by
  induction referrers with
  | nil => rfl
  | cons r rs ih =>
    by_cases hr : r.userId = uid
    · simp [List.flatMap_cons, List.filter_append, List.filter_map, Function.comp_def, hr, ih]
    · have hr' : (r.userId == uid) = false := by simpa using hr
      simp [List.flatMap_cons, List.filter_append, List.filter_map, Function.comp_def, hr', ih]

theorem bonus_eq_referralCredits :
    (((referrerBonus db).find? fun b => user.id == b.userId).map (·.totalBonus)).getD 0 =
      referralCredits db user := by
  have hsum : (((referrerReferees db).filter fun row => row.1 == user.id).map Prod.snd).sum =
      referralCredits db user := sum_referrerReferees db user.id db.referrer
  rw [← hsum]
  simp only [referrerBonus, List.find?_map, Function.comp_def, find?_beq, List.mem_dedup]
  split_ifs with h
  · rfl
  · have hnil : (referrerReferees db).filter (fun row => row.1 == user.id) = [] :=
      List.filter_eq_nil_iff.mpr fun row hrow heq => h (by
        rw [← beq_iff_eq.mp heq]; exact List.mem_map_of_mem Prod.fst hrow)
    simp [hnil]

end User

/-! ## What the query returns -/

section Query

variable (db : Db)

theorem filter_joinUser (u : UInt64) (x : User) :
    (joinUser db x).filter (fun row => row.user.id == u) =
      if x.id = u then joinUser db x else [] := by
  split_ifs with hx
  · exact List.filter_eq_self.mpr fun row hr => by simp [(mem_joinUser db x row hr).1, hx]
  · exact List.filter_eq_nil_iff.mpr fun row hr => by simp [(mem_joinUser db x row hr).1, hx]

theorem balanceRows_eq (u : UInt64) :
    balanceRows db u = (db.user.filter fun x => x.id == u).flatMap (joinUser db) := by
  rw [balanceRows, List.filter_flatMap]
  simp only [filter_joinUser]
  induction db.user with
  | nil => rfl
  | cons x l ih => by_cases hx : x.id = u <;> simp [List.filter_cons, hx, ih]

theorem balanceRows_of_user {u : UInt64} {user : User} (huser : user ∈ db.user)
    (hid : user.id = u) :
    balanceRows db u = joinUser db user := by
  have hle := length_filter_key_le_one db.userKey u
  have hmem : user ∈ db.user.filter fun x => x.id == u :=
    List.mem_filter.mpr ⟨huser, by simp [hid]⟩
  rw [List.filter_congr fun _ _ => Bool.beq_comm] at hle
  rw [balanceRows_eq]
  match hf : db.user.filter fun x => x.id == u, hle with
  | [y], _ =>
    obtain rfl : user = y := by simpa [hf] using hmem
    simp [hf]
  | [], _ => simp [hf] at hmem
  | _ :: _ :: _, h => simp [hf] at h

theorem balanceRows_of_unknown {u : UInt64} (h : ∀ user ∈ db.user, user.id ≠ u) :
    balanceRows db u = [] := by
  rw [balanceRows_eq, List.filter_eq_nil_iff.mpr (by simpa using h)]
  rfl

structure JoinWidths where
  admin : Nat
  chain : Nat
  stripe : Nat
  referee : Nat
  keys : Nat
  tier : Nat

def joinWidths (user : User) : JoinWidths :=
  ⟨(adminJoin db user).length, (chainJoin db user).length, (stripeJoin db user).length,
    (refereeJoin db user).length,
    ((rpcKeyJoin db user).map fun k => (accountingJoin db k).length).sum,
    (userTierJoin db user).length⟩

def receiptSum (receipts : List Receipt) (user : User) : Decimal :=
  ((receipts.filter fun r => user.id == r.depositToUserId).map (·.amount)).sum

def refereeBonusSum (user : User) : Decimal :=
  ((db.referee.filter fun r => user.id == r.userId).map (·.oneTimeBonusAppliedForReferee)).sum

def accountingSum (user : User) (column : Accounting → Decimal) : Decimal :=
  ((db.rpcKey.filter fun k => user.id == k.userId).map fun k =>
    ((db.accounting.filter fun a => k.id == a.rpcKeyId).map column).sum).sum

def fanOutBalance (user : User) : Balance :=
  let w := joinWidths db user
  { userId := user.id
    totalSpentPaidCredits := ((w.admin * w.chain * w.stripe * w.referee * w.tier : Nat) : Decimal) *
      accountingSum db user (·.sumCreditsUsed)
    totalSpent := ((w.admin * w.chain * w.stripe * w.referee * w.tier : Nat) : Decimal) *
      accountingSum db user (·.sumInclFreeCreditsUsed)
    totalDeposits :=
      ((w.chain * w.stripe * w.referee * w.keys * w.tier : Nat) : Decimal) *
        receiptSum db.adminReceipt user +
      ((w.admin * w.stripe * w.referee * w.keys * w.tier : Nat) : Decimal) *
        receiptSum db.chainReceipt user +
      ((w.admin * w.chain * w.referee * w.keys * w.tier : Nat) : Decimal) *
        receiptSum db.stripeReceipt user +
      ((w.admin * w.chain * w.stripe * w.keys * w.tier : Nat) : Decimal) * refereeBonusSum db user +
      referralCredits db user }

theorem balanceQuery_of_user {u : UInt64} {user : User} (huser : user ∈ db.user)
    (hid : user.id = u) :
    balanceQuery db u = [⟨some u, some (fanOutBalance db user).totalDeposits,
      some (fanOutBalance db user).totalSpentPaidCredits,
      some (fanOutBalance db user).totalSpent⟩] := by
  subst hid
  obtain ⟨row, hrow⟩ : ∃ row, (joinUser db user).head? = some row :=
    Option.ne_none_iff_exists'.mp (by simp)
  have hmem := mem_joinUser db user row (List.mem_of_mem_head? hrow)
  rw [bonusJoin_eq, List.mem_singleton] at hmem
  simp only [balanceQuery, balanceRows_of_user db huser rfl, hrow, Option.map_some',
    Option.some_bind, hmem.1, hmem.2, bonus_eq_referralCredits, columnSum_eq, fanOutBalance,
    joinWidths]
  -- the sums over the join chain, level by level
  simp only [joinUser, bonusJoin_eq, sum_flatMap, List.map_map, Function.comp_def, List.map_const',
    List.sum_replicate, nsmul_eq_mul, List.sum_map_mul_left, List.sum_map_mul_right,
    List.length_singleton, Nat.cast_one, one_mul, adminJoin, chainJoin, stripeJoin, refereeJoin,
    rpcKeyJoin, accountingJoin, userTierJoin, receiptSum, refereeBonusSum, accountingSum,
    Option.map_none', Option.getD_none, Option.any_none, List.filter_false, List.map_nil,
    List.sum_nil, Option.map_some', Option.getD_some, Option.any_some, sum_leftJoin]
  simp only [Nat.cast_mul, Nat.cast_list_sum, List.map_map, Function.comp_def, List.cons.injEq,
    BalanceRow.mk.injEq, Option.some.injEq, and_true, true_and]
  exact ⟨by ring, by ring, by ring⟩

theorem tryFromDb_of_user {u : UInt64} {user : User} (hu : u ≠ 0) (huser : user ∈ db.user)
    (hid : user.id = u) : Balance.tryFromDb db u = .ok (some (fanOutBalance db user)) := by
  simp only [Balance.tryFromDb, hu, if_false, balanceQuery_of_user db huser hid, Balance.one,
    List.head?_cons, Balance.fromQueryResult, getColumn]
  subst hid
  rfl

def fanOutDb : Db where
  user := [⟨1, 0⟩]
  adminReceipt := [⟨1, 10⟩]
  chainReceipt := []
  stripeReceipt := []
  referee := []
  referrer := []
  rpcKey := [⟨7, 1⟩]
  accounting := [⟨7, 1, 1⟩, ⟨7, 2, 2⟩]
  userTier := [⟨0⟩]
  userKey := by decide

/-- The join pairs the one receipt with both accounting rows, so `total_deposits` is 20 and
`remaining()` 17. -/
theorem deposits_counted_per_accounting_row :
    receiptSum fanOutDb.adminReceipt ⟨1, 0⟩ = 10 ∧
      Balance.tryFromDb fanOutDb 1 = .ok (some ⟨1, 3, 3, 20⟩) ∧
      (⟨1, 3, 3, 20⟩ : Balance).remaining = 17 := by
  refine ⟨by norm_num [receiptSum, fanOutDb], ?_, by norm_num [Balance.remaining]⟩
  rw [tryFromDb_of_user fanOutDb (by decide) (List.mem_singleton_self _) rfl]
  simp [fanOutBalance, joinWidths, adminJoin, chainJoin, stripeJoin, refereeJoin, rpcKeyJoin,
    accountingJoin, userTierJoin, leftJoin, receiptSum, refereeBonusSum, accountingSum,
    referralCredits, fanOutDb]
  norm_num

theorem tryFromDb_of_unknown {u : UInt64} (hu : u ≠ 0) (h : ∀ user ∈ db.user, user.id ≠ u) :
    Balance.tryFromDb db u = .error (.nullValue "user_id") := by
  simp only [Balance.tryFromDb, hu, if_false, balanceQuery, balanceRows_of_unknown db h,
    Balance.one, List.head?_cons, List.head?_nil, Option.map_none', Balance.fromQueryResult,
    getColumn]
  rfl

def emptyDb : Db := ⟨[], [], [], [], [], [], [], [], [], List.nodup_nil⟩

/-- No user has id 1, and `try_from_db` fails to decode the row of the empty group. -/
theorem unknown_user_decode_error :
    Balance.tryFromDb emptyDb 1 = .error (.nullValue "user_id") :=
  tryFromDb_of_unknown emptyDb (by decide) nofun

end Query

end Web3Proxy
