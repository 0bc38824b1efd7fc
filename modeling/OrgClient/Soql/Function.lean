namespace OrgClient.Soql

/-- A function of the query language. -/
inductive Function where
  | count
  | countDistinct
  | avg
  | min
  | max
  | sum
  | grouping
  | calendarMonth
  | calendarQuarter
  | calendarYear
  | dayInMonth
  | dayInWeek
  | dayInYear
  | dayOnly
  | fiscalMonth
  | fiscalQuarter
  | fiscalYear
  | hourInDay
  | weekInMonth
  | weekInYear
  | convertTimezone
  | convertCurrency
  | format
  | toLabel
  deriving DecidableEq, Repr

def Function.name : Function → String
  | .count => "COUNT"
  | .countDistinct => "COUNT_DISTINCT"
  | .avg => "AVG"
  | .min => "MIN"
  | .max => "MAX"
  | .sum => "SUM"
  | .grouping => "GROUPING"
  | .calendarMonth => "CALENDAR_MONTH"
  | .calendarQuarter => "CALENDAR_QUARTER"
  | .calendarYear => "CALENDAR_YEAR"
  | .dayInMonth => "DAY_IN_MONTH"
  | .dayInWeek => "DAY_IN_WEEK"
  | .dayInYear => "DAY_IN_YEAR"
  | .dayOnly => "DAY_ONLY"
  | .fiscalMonth => "FISCAL_MONTH"
  | .fiscalQuarter => "FISCAL_QUARTER"
  | .fiscalYear => "FISCAL_YEAR"
  | .hourInDay => "HOUR_IN_DAY"
  | .weekInMonth => "WEEK_IN_MONTH"
  | .weekInYear => "WEEK_IN_YEAR"
  | .convertTimezone => "convertTimezone"
  | .convertCurrency => "convertCurrency"
  | .format => "FORMAT"
  | .toLabel => "toLabel"

def Function.all : List Function :=
  [.count, .countDistinct, .avg, .min, .max, .sum, .grouping, .calendarMonth, .calendarQuarter,
    .calendarYear, .dayInMonth, .dayInWeek, .dayInYear, .dayOnly, .fiscalMonth, .fiscalQuarter,
    .fiscalYear, .hourInDay, .weekInMonth, .weekInYear, .convertTimezone, .convertCurrency,
    .format, .toLabel]

def Function.isAggregate : Function → Bool
  | .count | .countDistinct | .avg | .min | .max | .sum | .grouping => true
  | _ => false

end OrgClient.Soql
