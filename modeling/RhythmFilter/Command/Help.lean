/-!
# Help

What the program says about itself.
-/

namespace RhythmFilter

def helpLines : List String := [
  "osu-query v0.1.0",
  "Turn osu! score and beatmap filter strings into predicates",
  "",
  "USAGE:",
  "    osu-query <command> [options]",
  "",
  "COMMANDS:",
  "    score <filters>             Score filters (pp>100 rank/XHSH)",
  "    beatmap <filters>           Beatmap filters (stars>5 ar<=9)",
  "    beatmapset <filters>        Beatmap set filters (tags/miku,vocaloid)",
  "    mods <modstring>            Mod filter (!HDDT or +HD-NF)",
  "    sort <acronym>...           Sort mods into canonical order",
  "    users <ids>                 Comma-separated user IDs",
  "",
  "OPTIONS:",
  "    --mode <mode>               osu, taiko, fruits, mania or 0-3",
  "    --json                      Output in JSON format",
  "    --verbose, -v               Debug logging on stderr",
  "    --help                      Show this help message",
  "",
  "EXAMPLES:",
  "    osu-query score \"date<2010-12-12 pp>100 replay=1\"",
  "    osu-query --mode mania score count_miss=0",
  "    osu-query mods +HD -NF --json",
  "    osu-query sort HD DT HR"]

def helpText : String := String.join (helpLines.map (· ++ "\n"))

end RhythmFilter
