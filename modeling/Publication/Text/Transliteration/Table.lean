import Publication.Text.Blank
import Publication.Text.Transliteration

/-!
Transliteration by a table of spellings, for the program and for examples. The table covers the
scripts that are met most; a character that is not in it is replaced by a mark.
-/

namespace Publication.Text.SpellingTable

/-- First code point of a block, and the spellings of the code points from there, each ended by a
tab. A carriage return stands for a code point without a spelling. -/
def blocks : List (Nat × String) := [
  (0x007F, "\t"),
  (0x0080, "\t\t\t\t\t\t\t\t\t\t\t\t\t\t\t\t"),
  (0x0090, "\t\t\t\t\t\t\t\t\t\t\t\t\t\t\t\t"),
  (0x00A0, " \t!\tC/\tPS\t$?\tY=\t|\tSS\t\"\t(c)\ta\t<<\t!\t\t(r)\t-\t"),
  (0x00B0, "deg\t+-\t2\t3\t'\tu\tP\t*\t,\t1\to\t>>\t1/4\t1/2\t3/4\t?\t"),
  (0x00C0, "A\tA\tA\tA\tA\tA\tAE\tC\tE\tE\tE\tE\tI\tI\tI\tI\t"),
  (0x00D0, "D\tN\tO\tO\tO\tO\tO\tx\tO\tU\tU\tU\tU\tY\tTh\tss\t"),
  (0x00E0, "a\ta\ta\ta\ta\ta\tae\tc\te\te\te\te\ti\ti\ti\ti\t"),
  (0x00F0, "d\tn\to\to\to\to\to\t/\to\tu\tu\tu\tu\ty\tth\ty\t"),
  (0x0100, "A\ta\tA\ta\tA\ta\tC\tc\tC\tc\tC\tc\tC\tc\tD\td\t"),
  (0x0110, "D\td\tE\te\tE\te\tE\te\tE\te\tE\te\tG\tg\tG\tg\t"),
  (0x0120, "G\tg\tG\tg\tH\th\tH\th\tI\ti\tI\ti\tI\ti\tI\ti\t"),
  (0x0130, "I\ti\tIJ\tij\tJ\tj\tK\tk\tk\tL\tl\tL\tl\tL\tl\tL\t"),
  (0x0140, "l\tL\tl\tN\tn\tN\tn\tN\tn\t'n\tng\tNG\tO\to\tO\to\t"),
  (0x0150, "O\to\tOE\toe\tR\tr\tR\tr\tR\tr\tS\ts\tS\ts\tS\ts\t"),
  (0x0160, "S\ts\tT\tt\tT\tt\tT\tt\tU\tu\tU\tu\tU\tu\tU\tu\t"),
  (0x0170, "U\tu\tU\tu\tW\tw\tY\ty\tY\tZ\tz\tZ\tz\tZ\tz\ts\t"),
  (0x0180, "b\tB\tB\tb\t6\t6\tO\tC\tc\tD\tD\tD\td\td\t3\t@\t"),
  (0x0190, "E\tF\tf\tG\tG\thv\tI\tI\tK\tk\tl\tl\tW\tN\tn\tO\t"),
  (0x01A0, "O\to\tOI\toi\tP\tp\tYR\t2\t2\tSH\tsh\tt\tT\tt\tT\tU\t"),
  (0x01B0, "u\tY\tV\tY\ty\tZ\tz\tZH\tZH\tzh\tzh\t2\t5\t5\tts\tw\t"),
  (0x01C0, "|\t||\t|=\t!\tDZ\tDz\tdz\tLJ\tLj\tlj\tNJ\tNj\tnj\tA\ta\tI\t"),
  (0x01D0, "i\tO\to\tU\tu\tU\tu\tU\tu\tU\tu\tU\tu\t@\tA\ta\t"),
  (0x01E0, "A\ta\tAE\tae\tG\tg\tG\tg\tK\tk\tO\to\tO\to\tZH\tzh\t"),
  (0x01F0, "j\tDZ\tDz\tdz\tG\tg\tHV\tW\tN\tn\tA\ta\tAE\tae\tO\to\t"),
  (0x0200, "A\ta\tA\ta\tE\te\tE\te\tI\ti\tI\ti\tO\to\tO\to\t"),
  (0x0210, "R\tr\tR\tr\tU\tu\tU\tu\tS\ts\tT\tt\tY\ty\tH\th\t"),
  (0x0220, "N\td\tOU\tou\tZ\tz\tA\ta\tE\te\tO\to\tO\to\tO\to\t"),
  (0x0230, "O\to\tY\ty\tl\tn\tt\tj\tdb\tqp\tA\tC\tc\tL\tT\ts\t"),
  (0x0240, "z\t'\t'\tB\tU\t^\tE\te\tJ\tj\tq\tq\tR\tr\tY\ty\t"),
  (0x02BB, "`\t"),
  (0x0300, "\t\t\t\t\t\t\t\t\t\t\t\t\t\t\t\t"),
  (0x0310, "\t\t\t\t\t\t\t\t\t\t\t\t\t\t\t\t"),
  (0x0320, "\t\t\t\t\t\t\t\t\t\t\t\t\t\t\t\t"),
  (0x0330, "\t\t\t\t\t\t\t\t\t\t\t\t\t\t\t\t"),
  (0x0340, "\t\t\t\t\t\t\t\t\t\t\t\t\t\t\t\t"),
  (0x0350, "\t\t\t\t\t\t\t\t\t\t\t\t\t\t\t\t"),
  (0x0360, "\t\t\ta\te\ti\to\tu\tc\td\th\tm\tr\tt\tv\tx\t"),
  (0x0370, "H\th\tS\ts\t'\t,\tW\tw\t\r\t\r\ti\ts\ts.\ts.\t?\tJ\t"),
  (0x0380, "\r\t\r\t\r\t\r\t'\t\"'\tA\t;\tE\tE\tI\t\r\tO\t\r\tU\tO\t"),
  (0x0390, "I\tA\tB\tG\tD\tE\tZ\tE\tTh\tI\tK\tL\tM\tN\tKs\tO\t"),
  (0x03A0, "P\tR\t\r\tS\tT\tU\tPh\tKh\tPs\tO\tI\tU\ta\te\te\ti\t"),
  (0x03B0, "u\ta\tb\tg\td\te\tz\te\tth\ti\tk\tl\tm\tn\tx\to\t"),
  (0x03C0, "p\tr\ts\ts\tt\tu\tph\tkh\tps\to\ti\tu\to\tu\to\t&\t"),
  (0x03D0, "b\tth\tU\tU\tU\tph\tp\t&\tQ\tq\tSt\tst\tW\tw\tQ\tq\t"),
  (0x03E0, "Sp\tsp\tSh\tsh\tF\tf\tKh\tkh\tH\th\tG\tg\tCH\tch\tTi\tti\t"),
  (0x03F0, "k\tr\tc\tj\tTH\te\te\tSh\tsh\ts\tS\ts\tr/\tS\tS.\tS.\t"),
  (0x0400, "Ie\tIo\tDj\tGj\tE\tDz\tI\tYi\tJ\tLj\tNj\tTsh\tKj\tI\tU\tDzh\t"),
  (0x0410, "A\tB\tV\tG\tD\tE\tZh\tZ\tI\tI\tK\tL\tM\tN\tO\tP\t"),
  (0x0420, "R\tS\tT\tU\tF\tKh\tTs\tCh\tSh\tShch\t'\tY\t'\tE\tIu\tIa\t"),
  (0x0430, "a\tb\tv\tg\td\te\tzh\tz\ti\ti\tk\tl\tm\tn\to\tp\t"),
  (0x0440, "r\ts\tt\tu\tf\tkh\tts\tch\tsh\tshch\t'\ty\t'\te\tiu\tia\t"),
  (0x0450, "ie\tio\tdj\tgj\tie\tdz\ti\tyi\tj\tlj\tnj\ttsh\tkj\ti\tu\tdzh\t"),
  (0x0460, "O\to\tE\te\tIe\tie\tE\te\tIe\tie\tO\to\tIo\tio\tKs\tks\t"),
  (0x0470, "Ps\tps\tF\tf\tY\ty\tY\ty\tu\tu\tO\to\tO\to\tOt\tot\t"),
  (0x0480, "Q\tq\t*1000*\t.\t\t\t\t.\t*100.000*\t*1.000.000*\tJh\tjh\t\"\t\"\tR'\tr'\t"),
  (0x0490, "G'\tg'\tG'\tg'\tG'\tg'\tZh'\tzh'\tZ'\tz'\tK'\tk'\tK'\tk'\tK'\tk'\t"),
  (0x04A0, "K'\tk'\tN'\tn'\tNg\tng\tP'\tp'\tKh\tkh\tS'\ts'\tT'\tt'\tU\tu\t"),
  (0x04B0, "U'\tu'\tKh'\tkh'\tTts\ttts\tCh'\tch'\tCh'\tch'\tH\th\tCh\tch\tCh'\tch'\t"),
  (0x04C0, "`\tZh\tzh\tK'\tk'\tLh\tlh\tN'\tn'\tNh\tnh\tCh\tch\tMh\tmh\th\t"),
  (0x04D0, "a\ta\tA\ta\tAe\tae\tIe\tie\t@\t@\t@\t@\tZh\tzh\tZ\tz\t"),
  (0x04E0, "Dz\tdz\tI\ti\tI\ti\tO\to\tO\to\tO\to\tE\te\tU\tu\t"),
  (0x04F0, "U\tu\tU\tu\tCh\tch\tGh\tgh\tY\ty\tXh\txh\tX\tx\tH\th\t"),
  (0x05D0, "'\tb\tg\td\th\tv\tz\tkh\tt\ty\tk\tk\tl\tm\tm\tn\t"),
  (0x05E0, "n\ts\t`\tp\tp\tts\tts\tq\tr\tsh\tt\t"),
  (0x0621, "'\ta\t'\tw'\t'\ty'\t\tb\t@\tt\tth\tj\tH\tkh\td\t"),
  (0x0630, "dh\tr\tz\ts\tsh\tS\tD\tT\tZ\t`\tG\tg\tg\ty\ti\ti\t"),
  (0x0640, "\tf\tq\tk\tl\tm\tn\th\tw\t~\ty\t"),
  (0x1E00, "A\ta\tB\tb\tB\tb\tB\tb\tC\tc\tD\td\tD\td\tD\td\t"),
  (0x1E10, "D\td\tD\td\tE\te\tE\te\tE\te\tE\te\tE\te\tF\tf\t"),
  (0x1E20, "G\tg\tH\th\tH\th\tH\th\tH\th\tH\th\tI\ti\tI\ti\t"),
  (0x1E30, "K\tk\tK\tk\tK\tk\tL\tl\tL\tl\tL\tl\tL\tl\tM\tm\t"),
  (0x1E40, "M\tm\tM\tm\tN\tn\tN\tn\tN\tn\tN\tn\tO\to\tO\to\t"),
  (0x1E50, "O\to\tO\to\tP\tp\tP\tp\tR\tr\tR\tr\tR\tr\tR\tr\t"),
  (0x1E60, "S\ts\tS\ts\tS\ts\tS\ts\tS\ts\tT\tt\tT\tt\tT\tt\t"),
  (0x1E70, "T\tt\tU\tu\tU\tu\tU\tu\tU\tu\tU\tu\tV\tv\tV\tv\t"),
  (0x1E80, "W\tw\tW\tw\tW\tw\tW\tw\tW\tw\tX\tx\tX\tx\tY\ty\t"),
  (0x1E90, "Z\tz\tZ\tz\tZ\tz\th\tt\tw\ty\ta\ts\ts\ts\tSs\td\t"),
  (0x1EA0, "A\ta\tA\ta\tA\ta\tA\ta\tA\ta\tA\ta\tA\ta\tA\ta\t"),
  (0x1EB0, "A\ta\tA\ta\tA\ta\tA\ta\tE\te\tE\te\tE\te\tE\te\t"),
  (0x1EC0, "E\te\tE\te\tE\te\tE\te\tI\ti\tI\ti\tO\to\tO\to\t"),
  (0x1ED0, "O\to\tO\to\tO\to\tO\to\tO\to\tO\to\tO\to\tO\to\t"),
  (0x1EE0, "O\to\tO\to\tU\tu\tU\tu\tU\tu\tU\tu\tU\tu\tU\tu\t"),
  (0x1EF0, "U\tu\tY\ty\tY\ty\tY\ty\tY\ty\tLL\tll\tV\tv\tY\ty\t"),
  (0x2000, " \t \t \t \t \t \t \t \t \t \t \t \t\t\t\t\t"),
  (0x2010, "-\t-\t-\t-\t--\t--\t||\t_\t'\t'\t,\t'\t\"\t\"\t,,\t\"\t"),
  (0x2020, "+\t++\t*\t*>\t.\t..\t...\t.\t\n\t\n\n\t\t\t\t\t\t \t"),
  (0x2030, "%0\t%00\t'\t''\t'''\t`\t``\t```\t^\t<\t>\t*\t!!\t!?\t-\t_\t"),
  (0x2040, "-\t^\t***\t--\t/\t-[\t]-\t??\t?!\t!?\t7\tPP\t(]\t[)\t*\t;\t"),
  (0x2050, "_\t**\t./.\t~\t_\t*\t_\t''''\t_\t*\t:\t_\t+\t_\t_\t \t"),
  (0x2060, "\t\t\t\t\t\r\t\t\t\t\t\t\t\t\t\t\t"),
  (0x2070, "0\ti\t\t\t4\t5\t6\t7\t8\t9\t+\t-\t=\t(\t)\tn\t"),
  (0x2080, "0\t1\t2\t3\t4\t5\t6\t7\t8\t9\t+\t-\t=\t(\t)\t\r\t"),
  (0x2090, "a\te\to\tx\te\th\tk\tl\tm\tn\tp\ts\tt\t\r\t\r\t\r\t"),
  (0x20A0, "ECU\tCL\tCr\tFF\tL\tmil\tN\tPts\tRs\tW\tNS\tD\tEUR\tK\tT\tDr\t"),
  (0x20B0, "Pf\tP\tG\tA\tHRN\tC\tlt\tSm\tT\tRs\tTL\tM\tManat\tRb\tLari\tBTC\t"),
  (0x2100, "a/c\ta/s\tC\tC\tCL\tc/o\tc/u\tE\tg\tF\tg\tH\tH\tH\th\th\t"),
  (0x2110, "I\tI\tL\tl\t#\tN\tNo\t(P)\tp\tP\tQ\tR\tR\tR\tRx\tR\t"),
  (0x2120, "SM\tTEL\ttm\tV\tZ\toz\tOhm\tMho\tZ\ti\tK\tA\tB\tC\te\te\t"),
  (0x2130, "E\tF\tF\tM\to\ta\tb\tg\td\tinformation source \tQ\tFAX\tp\tg\tG\tP\t"),
  (0x2140, "S\tG\tL\tL\tY\tD\td\te\ti\tj\tPL\t&\tP\tA/S\tf\tSh\t"),
  (0x2150, "1/7\t1/9\t1/10\t 1/3 \t 2/3 \t 1/5 \t 2/5 \t 3/5 \t 4/5 \t 1/6 \t 5/6 \t 1/8 \t 3/8 \t 5/8 \t 7/8 \t 1/\t"),
  (0x2160, "I\tII\tIII\tIV\tV\tVI\tVII\tVIII\tIX\tX\tXI\tXII\tL\tC\tD\tM\t"),
  (0x2170, "i\tii\tiii\tiv\tv\tvi\tvii\tviii\tix\tx\txi\txii\tl\tc\td\tm\t"),
  (0x2180, "(D\tD)\t((|))\t)\tc\t6\tL\t|)))\t(((|)))\t0/3\t2\t3\t\r\t\r\t\r\t\r\t"),
  (0x2190, "-\t|\t-\t|\t-\t|\t\\\t/\t\\\t/\t-\t-\t~\t~\t-\t|\t"),
  (0x21A0, "-\t|\t-\t-\t-\t|\t-\t|\t|\t-\t-\t-\t-\t-\t-\t|\t"),
  (0x21B0, "|\t|\t|\t|\t|\t|\t^\tV\t\\\t=\tV\t^\t-\t-\t|\t|\t"),
  (0x21C0, "-\t-\t|\t|\t=\t|\t=\t=\t|\t=\t|\t=\t=\t=\t=\t=\t"),
  (0x21D0, "=\t|\t=\t|\t=\t|\t\\\t/\t\\\t/\t=\t=\t~\t~\t|\t|\t"),
  (0x21E0, "-\t|\t-\t|\t-\t-\t-\t|\t-\t|\t|\t|\t|\t|\t|\t|\t"),
  (0x21F0, "-\t\\\t\\\t|\t>\t|\t>\t<\t>\t-\t<\t>\t-\t<\t>\t-\t"),
  (0x2200, "V\tC\td\tE\tE\t0\t^\tD\tE\tE\tE\tE\tE\tE\t#\tP\t"),
  (0x2210, "U\tS\t-\t-+\t+\t/\t\\\t*\t*\t*\tsqrt\tcbrt\t4rt\t~\tinf\tL\t"),
  (0x2220, "<\t<\t<\t|\t|\t||\t||\t^\tv\t^\tv\tS\tS\tSSS\tS\tSS\t"),
  (0x2230, "SSS\tS\tS\tS\t:.\t\r\t:\t\r\t_\t-\t-\t~\t~\t~\t~\t~\t"),
  (0x2240, "~\t~\t-~\t~\t~\t~=\t=\t=\t~\t~\t~\t~\t~=\t=\t=\t=\t"),
  (0x2250, "=\t=\t=\t=\t=\t=\t=\t=\t=\t=\t=\t=\t=\t=\t=\t=\t"),
  (0x2260, "=\t=\t=\t=\t<=\t>=\t<=\t>=\t<\t>\t<<\t>>\t()\t=\t<\t>\t"),
  (0x2270, "<\t>\t<~\t>~\t<\t>\t=\t=\t=\t=\t<\t>\t<\t>\t<\t>\t"),
  (0x2280, "<\t>\t<\t>\t<\t>\t<\t>\t<\t>\t<\t>\tv\tv\tv\t[\t"),
  (0x2290, "]\t[\t]\t^\tv\t+\t-\tx\t/\t.\to\t*\t=\t-\t+\t-\t"),
  (0x22A0, "x\t.\t+\t+\t+\t+\t+\t+\t+\t+\t+\t+\t+\t+\t+\t+\t"),
  (0x22B0, "<\t>\t<\t>\t<\t>\t-\t-\t-\t+\tT\tv\t^\tv\t<\t/\t"),
  (0x22C0, "^\tv\t^\tv\t*\t*\t*\t*\t><\t><\t><\t>\t<\t~=\tv\t^\t"),
  (0x22D0, "<\t>\t^\tv\t+\t#\t<\t>\t<<<\t>>>\t=\t=\t=<\t=>\t<\t>\t"),
  (0x22E0, "<\t>\t[\t]\t[\t]\t<\t>\t<\t>\t<\t>\t<\t>\t|\t-\t"),
  (0x22F0, "/\t\\\t+\t+\t+\t+\t+\t+\t+\t+\t+\t+\t+\t+\t+\tE\t"),
  (0x2460, "1\t2\t3\t4\t5\t6\t7\t8\t9\t10\t11\t12\t13\t14\t15\t16\t"),
  (0x2470, "17\t18\t19\t20\t(1)\t(2)\t(3)\t(4)\t(5)\t(6)\t(7)\t(8)\t(9)\t(10)\t(11)\t(12)\t"),
  (0x2480, "(13)\t(14)\t(15)\t(16)\t(17)\t(18)\t(19)\t(20)\t1.\t2.\t3.\t4.\t5.\t6.\t7.\t8.\t"),
  (0x2490, "9.\t10.\t11.\t12.\t13.\t14.\t15.\t16.\t17.\t18.\t19.\t20.\t(a)\t(b)\t(c)\t(d)\t"),
  (0x24A0, "(e)\t(f)\t(g)\t(h)\t(i)\t(j)\t(k)\t(l)\t(m)\t(n)\t(o)\t(p)\t(q)\t(r)\t(s)\t(t)\t"),
  (0x24B0, "(u)\t(v)\t(w)\t(x)\t(y)\t(z)\tA\tB\tC\tD\tE\tF\tG\tH\tI\tJ\t"),
  (0x24C0, "K\tL\tM\tN\tO\tP\tQ\tR\tS\tT\tU\tV\tW\tX\tY\tZ\t"),
  (0x24D0, "a\tb\tc\td\te\tf\tg\th\ti\tj\tk\tl\tm\tn\to\tp\t"),
  (0x24E0, "q\tr\ts\tt\tu\tv\tw\tx\ty\tz\t0\t11\t12\t13\t14\t15\t"),
  (0x24F0, "16\t17\t18\t19\t20\t1\t2\t3\t4\t5\t6\t7\t8\t9\t10\t0\t"),
  (0x2600, "*\tcloud \tumbrella \tsnowman \tcomet \t*\t*\t<\t*\t*\t*\t*\t0\t180\ttelephone \ttelephone \t"),
  (0x2610, "[ ]\t[v]\t[x]\tX\tumbrella \tcoffee \tW\tB\tshamrock \t**\t<\t>\t<\t^\t>\tv\t"),
  (0x2620, "skull crossbones \t!!\tradioactive \tbiohazard \t+\t+\torthodox cross \tChR.\t+\t+\tstar and crescent \tfarsi \t*\thammer & sickle \tpeace \tyin yang \t"),
  (0x2630, "heaven \tDui\tLi\tZhen\tXun\tKan\tGen\tearth \twheel of dharma \t:(\t:)\t:)\t*\t)\t(\tMercury\t"),
  (0x2640, "female sign \tEarth\tmale sign \tJupiter\tSaturn\tUranus\tNeptune\tPluto\taries \ttaurus \tgemini \tcancer \tleo \tvirgo \tlibra \tscorpius \t"),
  (0x2650, "sagittarius \tcapricorn \taquarius \tpisces \twhite king \tQ\tR\tB\tN\tP\tk\tq\tr\tb\tblack knight \tchess pawn \t"),
  (0x2660, "spades \twhite heart \twhite diamond \tclubs \twhite spade \thearts \tdiamonds \twhite club \thotsprings\t#\t#\t#\t#\tb\t#\t#\t"),
  (0x2670, "+\t+\t*\t/1\\\t/2\\\t/3\\\t/4\\\t/5\\\t/6\\\t/7\\\trecycling \trecycle \trecycled (pap) \trecycled (part pap) \t(inf) \twheelchair \t"),
  (0x2680, "1\t2\t3\t4\t5\t6\t*\t*\t*\t*\tYangYao\tYinYao\tTaiYang\tShaoYin\tShaoYang\tTaiYin\t"),
  (0x2690, "white flag \tblack flag \thammer & pick \tanchor \tcrossed swords \tmedical symbol \tscales \talembic \t*\tgear \tstaff of hermes \tatom \tfleur-de-lis \t*\t\\>\t\\<\t"),
  (0x26A0, "warning \tzap \tdoubled female sign \t*\t*\t*\tmale sign with stroke \ttransgender symbol \tvertical male sign with stroke \tmale sign with stroke horizontal \twhite circle \tblack circle \to\too\to|o\to-o\t"),
  (0x26B0, "coffin \turn\tneuter \t*\t*\t*\t*\t*\t*\t*\t30\t150\tsesquiquadrate \tsoccer \tbaseball \t[key] \t"),
  (0x26C0, "M\tK\tm\tblack draughts king \tsnowman \tpartly sunny \train \tsnowman \tthunder cloud rain \tturned white shogi piece \tb\t#\tX\tdisabled car \tophiuchus \tpick \t"),
  (0x26D0, "car sliding \thelmet with cross \tcircled crossing lanes \tchains \tno entry \talternate oneway left way traffic \t*\t*\t*\t*\t::\tv\t*\tX\t\\\t*\t"),
  (0x26E0, "*\t*\tUranus\t*\t*\t*\t*\t*\tblack cross shield \tshinto shrine \tchurch \tcastle \t:.\t*\t*\tlighthouse \t"),
  (0x26F0, "mountain \tbeach umbrella \tfountain \tgolf \tferry \tboat \t#\tskier \tice skate \tbasketballer \ttent \tjp bank \tgraveyard \tfuelpump \tcup \t*\t"),
  (0x2764, "heart\t"),
  (0x3000, " \t, \t. \t\"\t[JIS]\t\"\t/\t0\t<\t> \t<<\t>> \t[\t] \t\x7b\t\x7d \t"),
  (0x3010, "[(\t)] \t@\tX \t[\t] \t[[\t]] \t((\t)) \t[[\t]] \t~ \t``\t''\t,,\t"),
  (0x3020, "@\t1\t2\t3\t4\t5\t6\t7\t8\t9\t\t\t\t\t\t\t"),
  (0x3030, "~\t+\t+\t+\t+\t\\\t@\t // \t+10+\t+20+\t+30+\t-\tMasu\tpart alternation mark \t~\t#\t"),
  (0x3040, "\r\ta\ta\ti\ti\tu\tu\te\te\to\to\tka\tga\tki\tgi\tku\t"),
  (0x3050, "gu\tke\tge\tko\tgo\tsa\tza\tsi\tzi\tsu\tzu\tse\tze\tso\tzo\tta\t"),
  (0x3060, "da\tti\tdi\ttu\ttu\tdu\tte\tde\tto\tdo\tna\tni\tnu\tne\tno\tha\t"),
  (0x3070, "ba\tpa\thi\tbi\tpi\thu\tbu\tpu\the\tbe\tpe\tho\tbo\tpo\tma\tmi\t"),
  (0x3080, "mu\tme\tmo\tya\tya\tyu\tyu\tyo\tyo\tra\tri\tru\tre\tro\twa\twa\t"),
  (0x3090, "wi\twe\two\tn\tvu\tka\tke\t\r\t\r\t'\t`\t'\t`\t\"\t\"\tyori\t"),
  (0x30A0, "=\ta\ta\ti\ti\tu\tu\te\te\to\to\tka\tga\tki\tgi\tku\t"),
  (0x30B0, "gu\tke\tge\tko\tgo\tsa\tza\tsi\tzi\tsu\tzu\tse\tze\tso\tzo\tta\t"),
  (0x30C0, "da\tti\tdi\ttu\ttu\tdu\tte\tde\tto\tdo\tna\tni\tnu\tne\tno\tha\t"),
  (0x30D0, "ba\tpa\thi\tbi\tpi\thu\tbu\tpu\the\tbe\tpe\tho\tbo\tpo\tma\tmi\t"),
  (0x30E0, "mu\tme\tmo\tya\tya\tyu\tyu\tyo\tyo\tra\tri\tru\tre\tro\twa\twa\t"),
  (0x30F0, "wi\twe\two\tn\tvu\tka\tke\tva\tvi\tve\tvo\t-\t\t\"\t\"\tkoto\t"),
  (0x338F, "kg\t"),
  (0x4E2D, "Zhong \t"),
  (0x4EAC, "Jing \t"),
  (0x51FA, "Chu \t"),
  (0x5317, "Bei \t"),
  (0x56F3, "Tu \t"),
  (0x56FD, "Guo \t"),
  (0x592A, "Tai \t"),
  (0x5B57, "Zi \t"),
  (0x5F37, "Qiang \t"),
  (0x6587, "Wen \t"),
  (0x65E5, "Ri \t"),
  (0x672C, "Ben \t"),
  (0x8336, "Cha \t"),
  (0x898B, "Jian \t"),
  (0x8A9E, "Yu \t"),
  (0x8ABF, "Diao \t"),
  (0xAD6D, "gug\t"),
  (0xC5B4, "eo\t"),
  (0xD55C, "han\t"),
  (0xE000, "\r\t"),
  (0xFB00, "ff\tfi\tfl\tffi\tffl\tst\tst\t"),
  (0xFEFF, "\t"),
  (0xFF00, "\r\t!\t\"\t#\t$\t%\t&\t'\t(\t)\t*\t+\t,\t-\t.\t/\t"),
  (0xFF10, "0\t1\t2\t3\t4\t5\t6\t7\t8\t9\t:\t;\t<\t=\t>\t?\t"),
  (0xFF20, "@\tA\tB\tC\tD\tE\tF\tG\tH\tI\tJ\tK\tL\tM\tN\tO\t"),
  (0xFF30, "P\tQ\tR\tS\tT\tU\tV\tW\tX\tY\tZ\t[\t\\\t]\t^\t_\t"),
  (0xFF40, "`\ta\tb\tc\td\te\tf\tg\th\ti\tj\tk\tl\tm\tn\to\t"),
  (0xFF50, "p\tq\tr\ts\tt\tu\tv\tw\tx\ty\tz\t\x7b\t|\t\x7d\t~\t(\t"),
  (0xFFFD, "?\t"),
  (0x1F4A9, "poop \t"),
  (0x1F600, "grinning \t"),
  (0x1F984, "unicorn \t") ]

/-- What is written for a character without a spelling. -/
def unknown : List Char := "[?]".toList

/-- The spelling a block gives to a code point: nothing outside the block, `some none` where the
block leaves the code point without one. -/
def spellingIn (code : Nat) (block : Nat × String) : Option (Option (List Char)) :=
  if code < block.1 then none
  else
    let cells := (splitOn '\t' block.2.toList).dropLast
    (cells[code - block.1]?).map fun cell => if cell = ['\r'] then none else some cell

/-- The spelling of a character, if it has one. -/
def spelling (c : Char) : Option (List Char) :=
  if c.toNat < 0x7F then some [c] else (blocks.findSome? (spellingIn c.toNat)).join

/-- The spelling loses its last blank before another blank and at the end of the text, unless it is
nothing but that blank. -/
def joined (cell : List Char) (next : Option (Option (List Char))) : List Char :=
  let dropped := match next with
    | none => true
    | some none => false
    | some (some following) => following.head? == some ' '
  if 1 < cell.length && cell.getLast? == some ' ' && dropped then cell.dropLast else cell

/-- The spellings of a text one after another. -/
def spell : List Char → List Char
  | [] => []
  | c :: rest =>
      match spelling c with
      | none => unknown ++ spell rest
      | some cell => joined cell (rest.head?.map spelling) ++ spell rest

/-- The text in ASCII. Up to its first character outside ASCII it is kept. -/
def toAscii (s : List Char) : List Char :=
  s.takeWhile (·.toNat < 0x7F) ++ spell (s.dropWhile (·.toNat < 0x7F))

/-- Text in ASCII is kept, by induction on it. -/
theorem toAscii_eq_self (s : List Char) (ascii : ∀ c ∈ s, c.toNat < 0x7F) : toAscii s = s := by
  induction s with
  | nil => rfl
  | cons c rest ih =>
      obtain ⟨first, others⟩ := List.forall_mem_cons.mp ascii
      have kept := ih others
      simp only [toAscii] at kept
      simp only [toAscii, List.takeWhile_cons, List.dropWhile_cons, first, decide_true, if_true,
        List.cons_append, kept]

end Publication.Text.SpellingTable

namespace Publication.StandIns

/-- The table in place of a transliteration of all scripts. -/
scoped instance tabular : Transliteration where
  toAscii := Text.SpellingTable.toAscii
  toAscii_eq_self := Text.SpellingTable.toAscii_eq_self

end Publication.StandIns
